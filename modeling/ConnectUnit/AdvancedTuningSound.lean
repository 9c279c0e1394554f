import ConnectUnit.BackgroundCcSound

/-!
# Clamped knobs

Clamping twice is clamping once, group by group.
-/

open Option (bind_eq_bind bind_eq_some_iff bind_some)

namespace ConnectUnit.Advanced

open Binary64 (Representable representable_half representable_one representable_round representable_zero round_div_ne)

variable {earlier later : Nat} {t t' : AdvancedTuning}

/-! ## Clamps -/

section
variable {α : Type} [LinearOrder α]
variable {lo hi : α}

theorem clampTo_of_mem {x : α} (h : lo ≤ hi) (hlo : lo ≤ x) (hhi : x ≤ hi) : clampTo x lo hi h = x := by
  unfold clampTo
  rw [min_eq_left hhi, max_eq_right hlo]

@[simp] theorem clampTo_clampTo {x : α} (h : lo ≤ hi) : clampTo (clampTo x lo hi h) lo hi h = clampTo x lo hi h :=
  clampTo_of_mem h (clampTo_mem x h).1 (clampTo_mem x h).2

theorem ite_lt_eq_max {x y : α} : (if x < y then y else x) = max x y := by
  split
  · rename_i h
    exact (max_eq_right h.le).symm
  rename_i h
  exact (max_eq_left (not_lt.mp h)).symm

theorem raise_again {x y : α} (h : lo ≤ hi) : max (clampTo (max (clampTo x lo hi h) (clampTo y lo hi h)) lo hi h)
    (clampTo y lo hi h) = max (clampTo x lo hi h) (clampTo y lo hi h) := by
  obtain ⟨hx, hx'⟩ := clampTo_mem x h
  obtain ⟨_, hy'⟩ := clampTo_mem y h
  rw [clampTo_of_mem h (le_max_of_le_left hx) (max_le hx' hy'), max_assoc, max_self]

theorem clamp_of_le (x : α) (h : lo ≤ hi) : clamp x lo hi = some (clampTo x lo hi h) := dif_pos h

theorem clamp_of_clamp {x y : α} (h : clamp x lo hi = some y) : clamp y lo hi = some y := by
  obtain ⟨hlo, hhi⟩ := clamp_mem h
  rw [clamp_of_le y (hlo.trans hhi), clampTo_of_mem _ hlo hhi]

end

/-! ## Weights -/

section
variable {old new : ℚ}

theorem unit_le : (0 : ℚ) ≤ 1 := by norm_num

def Balanced (old new : ℚ) : Prop :=
  let old := clampTo old 0 1 unit_le
  let new := clampTo new 0 1 unit_le
  let sum := Binary64.round (old + new)
  sum = 0 ∨ Binary64.round (Binary64.round (old / sum) + Binary64.round (new / sum)) = 1

theorem representable_clampTo (h : Representable old) : Representable (clampTo old 0 1 unit_le) := by
  unfold clampTo
  rcases max_choice 0 (min old 1) with h₁ | h₁
  · rw [h₁]
    exact representable_zero
  rw [h₁]
  rcases min_choice old 1 with h₂ | h₂
  · rw [h₂]
    exact h
  rw [h₂]
  exact representable_one

theorem quotient_mem (ho : Representable old) (hold : 0 ≤ old) (hnew : 0 ≤ new)
    (hs : 0 < Binary64.round (old + new)) : 0 ≤ Binary64.round (old / Binary64.round (old + new)) ∧ Binary64.round
    (old / Binary64.round (old + new)) ≤ 1 := by
  have hle : old ≤ Binary64.round (old + new) := ho.le_round (le_add_of_nonneg_right hnew)
  constructor
  · exact representable_zero.le_round (div_nonneg hold hs.le)
  exact representable_one.round_le ((div_le_one hs).mpr hle)

theorem half_le_quotient (ho : Representable old) (hle : new ≤ old) (hs : 0 < Binary64.round (old + new)) :
    1 / 2 ≤ Binary64.round (old / Binary64.round (old + new)) := by
  have htwice : Binary64.round (old + new) ≤ 2 * old := ho.two_mul.round_le (by linarith)
  apply representable_half.le_round
  rw [le_div_iff₀ hs]
  linarith

theorem divide_again_iff {a b : ℚ} (ha : Representable a) (hb : Representable b)
    (ha' : 0 ≤ a ∧ a ≤ 1) (hb' : 0 ≤ b ∧ b ≤ 1) (hhalf : 1 / 2 ≤ a ∨ 1 / 2 ≤ b) : renormalizePair a b = (a, b) ↔
    Binary64.round (a + b) = 1 := by
  have hsum : 0 < Binary64.round (a + b) := by
    refine lt_of_lt_of_le (by norm_num : (0 : ℚ) < 1 / 2) (representable_half.le_round ?_)
    rcases hhalf with h | h <;> linarith [ha'.1, hb'.1]
  unfold renormalizePair
  rw [clampTo_of_mem _ ha'.1 ha'.2, clampTo_of_mem _ hb'.1 hb'.2]
  dsimp only
  rw [if_pos hsum, Prod.mk.injEq]
  constructor
  · intro h
    by_contra hne
    have hrep := representable_round (a + b)
    rcases hhalf with hlo | hlo
    · exact round_div_ne ha hlo ha'.2 hrep hsum hne h.1
    exact round_div_ne hb hlo hb'.2 hrep hsum hne h.2
  intro h
  rw [h, div_one, div_one]
  exact ⟨ha.round_eq, hb.round_eq⟩

section
variable (ho : Representable old) (hn : Representable new)
include ho hn

theorem again_iff_of_mem (ho' : 0 ≤ old ∧ old ≤ 1)
    (hn' : 0 ≤ new ∧ new ≤ 1) : renormalizePair (renormalizePair old new).1 (renormalizePair old new).2 =
    renormalizePair old new ↔ Balanced old new := by
  have hpair : renormalizePair old new = if 0 < Binary64.round (old + new) then
      (Binary64.round (old / Binary64.round (old + new)), Binary64.round (new / Binary64.round (old + new))) else
        (1 / 2, 1 / 2) := by
    unfold renormalizePair
    rw [clampTo_of_mem _ ho'.1 ho'.2, clampTo_of_mem _ hn'.1 hn'.2]
  have hbalanced : Balanced old new ↔ Binary64.round (old + new) = 0 ∨ Binary64.round (Binary64.round
      (old / Binary64.round (old + new)) + Binary64.round (new / Binary64.round (old + new))) = 1 := by
    unfold Balanced
    rw [clampTo_of_mem _ ho'.1 ho'.2, clampTo_of_mem _ hn'.1 hn'.2]
  rw [hpair, hbalanced]
  by_cases hs : 0 < Binary64.round (old + new)
  · rw [if_pos hs, or_iff_right hs.ne']
    have hs' : 0 < Binary64.round (new + old) := by rwa [add_comm]
    have hb := quotient_mem hn hn'.1 ho'.1 hs'
    have hhalf : 1 / 2 ≤ Binary64.round (old / Binary64.round (old + new)) ∨
        1 / 2 ≤ Binary64.round (new / Binary64.round (old + new)) := by
      rcases le_total new old with hle | hle
      · exact .inl (half_le_quotient ho hle hs)
      have := half_le_quotient hn hle hs'
      rw [add_comm new old] at this
      exact .inr this
    rw [add_comm new old] at hb
    exact divide_again_iff (representable_round _) (representable_round _) (quotient_mem ho ho'.1 hn'.1 hs) hb hhalf
  · have hzero : Binary64.round (old + new) = 0 :=
      le_antisymm (not_lt.mp hs) (representable_zero.le_round (add_nonneg ho'.1 hn'.1))
    rw [if_neg hs]
    refine iff_of_true ?_ (.inl hzero)
    have hhalf := representable_half
    refine (divide_again_iff hhalf hhalf (by norm_num) (by norm_num) (.inl (le_refl _))).mpr ?_
    rw [add_halves]
    exact representable_one.round_eq

theorem renormalizePair_again_iff :
    renormalizePair (renormalizePair old new).1 (renormalizePair old new).2 = renormalizePair old new ↔ Balanced old
    new := by
  have hpair : renormalizePair (clampTo old 0 1 unit_le) (clampTo new 0 1 unit_le) = renormalizePair old new := by
    unfold renormalizePair
    rw [clampTo_clampTo, clampTo_clampTo]
  have hbalanced : Balanced (clampTo old 0 1 unit_le) (clampTo new 0 1 unit_le) ↔ Balanced old new := by
    unfold Balanced
    rw [clampTo_clampTo, clampTo_clampTo]
  rw [← hpair, ← hbalanced]
  exact again_iff_of_mem (representable_clampTo ho) (representable_clampTo hn) (clampTo_mem old unit_le)
    (clampTo_mem new unit_le)

end

end

/-! ## Groups -/

theorem FailoverTuning.clamp_clamp {t : FailoverTuning} : t.clamp.clamp = t.clamp := by
  unfold clamp
  simp only [ite_lt_eq_max, clampTo_clampTo, raise_again, max_assoc, max_self]

theorem ReliableTuning.clamp_clamp {t : ReliableTuning} : t.clamp.clamp = t.clamp := by
  unfold clamp
  simp only [clampTo_clampTo, max_assoc, max_self, min_assoc, min_self]

theorem ReliableTuning.rtoMin_le_rtoMax (t : ReliableTuning) : t.clamp.rtoMinMs ≤ t.clamp.rtoMaxMs := by
  unfold clamp
  exact le_max_right _ _

theorem BufferReuseTuning.clamp_clamp {t : BufferReuseTuning} : t.clamp.clamp = t.clamp := by
  unfold clamp
  simp only [clampTo_clampTo]

theorem FecTuning.clamp_clamp {t : FecTuning} : t.clamp.clamp = t.clamp := by
  unfold clamp
  simp only [ite_lt_eq_max, clampTo_clampTo, raise_again, max_assoc, max_self]

theorem PmtudTuning.clamp_clamp {t : PmtudTuning} : t.clamp.clamp = t.clamp := by
  unfold clamp
  simp only [clampTo_clampTo, max_assoc, max_self]

theorem HolePunchTuning.clamp_clamp {t : HolePunchTuning} : t.clamp.clamp = t.clamp := by
  have hport (p : Nat) : (if p = 0 then 1 else p) = max p 1 := by split <;> omega
  have hmin (x y : Nat) : (if y < x then y else x) = min x y := by split <;> omega
  unfold clamp
  simp only [clampTo_clampTo, min_assoc, min_self, hport, hmin, ite_lt_eq_max, HolePunchTuning.mk.injEq, true_and]
  exact ⟨by omega, by omega, by omega, by omega⟩

theorem clampPeriod_clampPeriod {x : Nat} {lo hi : Nat} (h : lo ≤ hi) : CongestionTuning.clampPeriod
    (CongestionTuning.clampPeriod x lo hi h) lo hi h = CongestionTuning.clampPeriod x lo hi h := by
  unfold CongestionTuning.clampPeriod
  split
  · rw [clampTo_clampTo, ite_self]
  rfl

namespace CongestionTuning

variable {t t' : CongestionTuning}

theorem clampRateKnobs_eq_none (h : ¬ t.minRateBps ≤ 50000000) : t.clampRateKnobs = none := by
  have hmin : ¬ clampTo t.minRateBps 1000 f64Max thousand_le_f64Max ≤ 50000000 := by
    unfold clampTo
    rw [not_le] at h ⊢
    exact lt_max_of_lt_right (lt_min h (by decide +kernel))
  unfold clampRateKnobs clamp
  dsimp only
  rw [dif_neg hmin]
  rfl

theorem exists_clampRateKnobs (h : t.minRateBps ≤ 50000000) : ∃ t', t.clampRateKnobs = some t' := by
  have hmin : clampTo t.minRateBps 1000 f64Max thousand_le_f64Max ≤ 50000000 :=
    max_le (by norm_num) ((min_le_left _ _).trans h)
  unfold clampRateKnobs
  dsimp only
  rw [clamp_of_le _ hmin, bind_eq_bind, bind_some, clamp_of_le _ (clampTo_mem t.maxRateBps hmin).1]
  exact ⟨_, rfl⟩

theorem clamped (h : t.clampDelayKnobs.clampRateKnobs = some t') : t'.minRateBps ≤ t'.initialRateBps ∧
    t'.initialRateBps ≤ t'.maxRateBps ∧ t'.clampDelayKnobs.clampRateKnobs = some t' := by
  obtain ⟨maxRate, hmax, h⟩ := bind_eq_some_iff.mp h
  obtain ⟨initial, hinitial, h⟩ := bind_eq_some_iff.mp h
  cases h
  refine ⟨(clamp_mem hinitial).1, (clamp_mem hinitial).2, ?_⟩
  have hmax : clamp maxRate (clampTo t.minRateBps 1000 f64Max thousand_le_f64Max) 50000000 = some maxRate :=
    clamp_of_clamp hmax
  have hinitial : clamp initial (clampTo t.minRateBps 1000 f64Max thousand_le_f64Max) maxRate = some initial :=
    clamp_of_clamp hinitial
  unfold clampRateKnobs clampDelayKnobs
  simp only [clampTo_clampTo, clampPeriod_clampPeriod]
  rw [hmax, bind_eq_bind, bind_some, hinitial]
  rfl

end CongestionTuning

theorem EngineLimitsTuning.exists_clamp (t : EngineLimitsTuning) : ∃ t', t.clamp = some t' := by
  have hbody := clampTo_mem t.msynBodyMax (by decide : 4096 ≤ 524288)
  have hle : 512 ≤ min 4096 (clampTo t.msynBodyMax 4096 524288 (by decide)) := by omega
  unfold clamp
  dsimp only
  rw [clamp_of_le _ hle]
  exact ⟨_, rfl⟩

theorem EngineLimitsTuning.clamped {t t' : EngineLimitsTuning} (h : t.clamp = some t') : t'.clamp = some t' := by
  obtain ⟨budget, hbudget, h⟩ := bind_eq_some_iff.mp h
  cases h
  unfold clamp
  simp only [clampTo_clampTo]
  rw [clamp_of_clamp hbudget]
  rfl

namespace TimerTuning

theorem lt_of_after {x : Nat} (h : after earlier later = some x) : earlier < x := by
  unfold after addU64 at h
  split at h
  · split at h
    · cases h
      exact Nat.lt_succ_self earlier
    · cases h
  cases h
  omega

theorem after_eq_some_iff {x : Nat} (hl : later < 2 ^ 64) :
    after earlier later = some x ↔ x = max (earlier + 1) later ∧ earlier + 1 < 2 ^ 64 := by
  unfold after addU64
  split
  · split
    · rw [Option.some.injEq]
      omega
    · exact ⟨nofun, fun h => by omega⟩
  rw [Option.some.injEq]
  omega

theorem exists_clamp_iff {t : TimerTuning} (hm : t.staleMarkSecs < 2 ^ 64) (he : t.staleEvictSecs < 2 ^ 64) :
    (∃ t', t.clamp = some t') ↔ t.staleTickSecs + 2 < 2 ^ 64 ∧ t.staleMarkSecs + 1 < 2 ^ 64 := by
  constructor
  · intro h
    obtain ⟨t', h⟩ := h
    obtain ⟨mark, hmark, h⟩ := bind_eq_some_iff.mp h
    obtain ⟨evict, hevict, h⟩ := bind_eq_some_iff.mp h
    obtain ⟨rfl, _⟩ := (after_eq_some_iff (by omega)).mp hmark
    obtain ⟨_, hroom⟩ := (after_eq_some_iff (by omega)).mp hevict
    omega
  intro h
  have hmark : after (max t.staleTickSecs 1) (max t.staleMarkSecs 1) = some (max (max t.staleTickSecs 1 + 1) (max t.staleMarkSecs 1)) :=
    (after_eq_some_iff (by omega)).mpr ⟨rfl, by omega⟩
  have hevict : after (max (max t.staleTickSecs 1 + 1) (max t.staleMarkSecs 1)) (max t.staleEvictSecs 1) = some _ :=
    (after_eq_some_iff (by omega)).mpr ⟨rfl, by omega⟩
  unfold clamp
  dsimp only
  rw [hmark, bind_eq_bind, bind_some, hevict]
  exact ⟨_, rfl⟩

theorem clamped {t t' : TimerTuning} (h : t.clamp = some t') :
    t'.staleTickSecs < t'.staleMarkSecs ∧ t'.staleMarkSecs < t'.staleEvictSecs ∧ t'.clamp = some t' := by
  obtain ⟨mark, hmark, h⟩ := bind_eq_some_iff.mp h
  obtain ⟨evict, hevict, h⟩ := bind_eq_some_iff.mp h
  cases h
  have hm := lt_of_after hmark
  have he := lt_of_after hevict
  refine ⟨hm, he, ?_⟩
  have hmark' : after (max (max t.staleTickSecs 1) 1) (max mark 1) = some mark := by
    rw [after, if_neg (by omega), Nat.max_eq_left (by omega)]
  have hevict' : after mark (max evict 1) = some evict := by
    rw [after, if_neg (by omega), Nat.max_eq_left (by omega)]
  unfold clamp
  dsimp only
  rw [hmark', bind_eq_bind, bind_some, hevict']
  simp only [clampTo_clampTo, max_assoc, max_self]
  rfl

end TimerTuning

namespace RoutingEwmaTuning

structure Weights (t : RoutingEwmaTuning) : Prop where
  rttOld : Representable t.rttEwmaOld
  rttNew : Representable t.rttEwmaNew
  jitterOld : Representable t.jitterEwmaOld
  jitterNew : Representable t.jitterEwmaNew
  bwOld : Representable t.bwEwmaOld
  bwNew : Representable t.bwEwmaNew

theorem clamp_clamp_iff {t : RoutingEwmaTuning} (h : t.Weights) : t.clamp.clamp = t.clamp ↔ Balanced t.rttEwmaOld
    t.rttEwmaNew ∧ Balanced t.jitterEwmaOld t.jitterEwmaNew ∧ Balanced t.bwEwmaOld t.bwEwmaNew := by
  rw [← renormalizePair_again_iff h.rttOld h.rttNew, ← renormalizePair_again_iff h.jitterOld h.jitterNew,
    ← renormalizePair_again_iff h.bwOld h.bwNew]
  unfold clamp
  simp only [clampTo_clampTo, RoutingEwmaTuning.mk.injEq, true_and, and_true]
  simp only [Prod.ext_iff]
  constructor
  · intro h
    exact ⟨⟨h.1, h.2.1⟩, ⟨h.2.2.1, h.2.2.2.1⟩, h.2.2.2.2.1, h.2.2.2.2.2⟩
  intro h
  exact ⟨h.1.1, h.1.2, h.2.1.1, h.2.1.2, h.2.2.1, h.2.2.2⟩

end RoutingEwmaTuning

/-! ## All knobs -/

namespace AdvancedTuning

/-- A sanitised configuration: the clamp returns knobs in order, and clamping them again changes nothing. -/
def Sanitised (cfg : NetworkConfig) : Prop :=
  ∃ t, fromNetworkConfig cfg = some t ∧ t.timers.staleTickSecs < t.timers.staleMarkSecs ∧
    t.timers.staleMarkSecs < t.timers.staleEvictSecs ∧ t.reliable.rtoMinMs ≤ t.reliable.rtoMaxMs ∧
    t.congestion.minRateBps ≤ t.congestion.initialRateBps ∧ t.congestion.initialRateBps ≤ t.congestion.maxRateBps ∧
    t.clamp = some t

theorem clamp_eq_some : t.clamp = some t' ↔ t.timers.clamp = some t'.timers ∧
    t.congestion.clampDelayKnobs.clampRateKnobs = some t'.congestion ∧ t.engineLimits.clamp = some t'.engineLimits ∧
    t'.failover = t.failover.clamp ∧ t'.reliable = t.reliable.clamp ∧ t'.fec = t.fec.clamp ∧ t'.pmtud = t.pmtud.clamp
    ∧ t'.routingEwma = t.routingEwma.clamp ∧ t'.holePunch = t.holePunch.clamp ∧ t'.buffers = t.buffers.clamp := by
  constructor
  · intro h
    obtain ⟨timers, htimers, h⟩ := bind_eq_some_iff.mp h
    obtain ⟨congestion, hcongestion, h⟩ := bind_eq_some_iff.mp h
    obtain ⟨limits, hlimits, h⟩ := bind_eq_some_iff.mp h
    cases h
    exact ⟨htimers, hcongestion, hlimits, rfl, rfl, rfl, rfl, rfl, rfl, rfl⟩
  intro h
  obtain ⟨htimers, hcongestion, hlimits, hfailover, hreliable, hfec, hpmtud, hewma, hpunch, hbuffers⟩ := h
  unfold clamp
  rw [htimers, bind_eq_bind, bind_some, hcongestion, bind_eq_bind, bind_some, hlimits,
    ← hfailover, ← hreliable, ← hfec, ← hpmtud, ← hewma, ← hpunch, ← hbuffers]
  rfl

/-- The times and weights are values of their types. -/
structure Typed (t : AdvancedTuning) : Prop where
  mark : t.timers.staleMarkSecs < 2 ^ 64
  evict : t.timers.staleEvictSecs < 2 ^ 64
  weights : t.routingEwma.Weights

/-- The least rate fits the hard limit of the rates, the stale times leave room for later ones, and the weights
  are balanced. -/
structure Sound (t : AdvancedTuning) : Prop where
  rate : t.congestion.minRateBps ≤ 50000000
  tick : t.timers.staleTickSecs + 2 < 2 ^ 64
  mark : t.timers.staleMarkSecs + 1 < 2 ^ 64
  rtt : Balanced t.routingEwma.rttEwmaOld t.routingEwma.rttEwmaNew
  jitter : Balanced t.routingEwma.jitterEwmaOld t.routingEwma.jitterEwmaNew
  bw : Balanced t.routingEwma.bwEwmaOld t.routingEwma.bwEwmaNew

theorem exists_clamp (ht : t.Typed) (h : t.Sound) : ∃ t', t.clamp = some t' := by
  obtain ⟨timers, htimers⟩ := (TimerTuning.exists_clamp_iff ht.mark ht.evict).mpr ⟨h.tick, h.mark⟩
  obtain ⟨congestion, hcongestion⟩ :=
    CongestionTuning.exists_clampRateKnobs (t := t.congestion.clampDelayKnobs) h.rate
  obtain ⟨limits, hlimits⟩ := t.engineLimits.exists_clamp
  unfold clamp
  rw [htimers, bind_eq_bind, bind_some, hcongestion, bind_eq_bind, bind_some, hlimits]
  exact ⟨_, rfl⟩

theorem clamp_again_iff (ht : t.Typed) (h : t.clamp = some t') : t'.clamp = some t' ↔ Balanced
    t.routingEwma.rttEwmaOld t.routingEwma.rttEwmaNew ∧ Balanced t.routingEwma.jitterEwmaOld
    t.routingEwma.jitterEwmaNew ∧ Balanced t.routingEwma.bwEwmaOld t.routingEwma.bwEwmaNew := by
  obtain ⟨htimers, hcongestion, hlimits, hfailover, hreliable, hfec, hpmtud, hewma, hpunch, hbuffers⟩ :=
    clamp_eq_some.mp h
  rw [← RoutingEwmaTuning.clamp_clamp_iff ht.weights, ← hewma]
  constructor
  · intro h'
    exact (clamp_eq_some.mp h').2.2.2.2.2.2.2.1.symm
  intro h'
  refine clamp_eq_some.mpr ⟨(TimerTuning.clamped htimers).2.2, (CongestionTuning.clamped hcongestion).2.2,
    EngineLimitsTuning.clamped hlimits, ?_, ?_, ?_, ?_, h'.symm, ?_, ?_⟩
  · rw [hfailover, FailoverTuning.clamp_clamp]
  · rw [hreliable, ReliableTuning.clamp_clamp]
  · rw [hfec, FecTuning.clamp_clamp]
  · rw [hpmtud, PmtudTuning.clamp_clamp]
  · rw [hpunch, HolePunchTuning.clamp_clamp]
  · rw [hbuffers, BufferReuseTuning.clamp_clamp]

theorem sanitised_iff {cfg : NetworkConfig} (ht : cfg.advanced.Typed) : Sanitised cfg ↔ cfg.advanced.Sound := by
  constructor
  · intro h
    obtain ⟨t, h, _, _, _, _, _, hagain⟩ := h
    obtain ⟨htimers, hcongestion, _⟩ := clamp_eq_some.mp h
    obtain ⟨htick, hmark⟩ := (TimerTuning.exists_clamp_iff ht.mark ht.evict).mp ⟨_, htimers⟩
    obtain ⟨hrtt, hjitter, hbw⟩ := (clamp_again_iff ht h).mp hagain
    refine ⟨?_, htick, hmark, hrtt, hjitter, hbw⟩
    by_contra hrate
    have hrate : ¬ cfg.advanced.congestion.clampDelayKnobs.minRateBps ≤ 50000000 := hrate
    rw [CongestionTuning.clampRateKnobs_eq_none hrate] at hcongestion
    cases hcongestion
  intro h
  obtain ⟨t, hclamp⟩ := exists_clamp ht h
  obtain ⟨htimers, hcongestion, _, _, hreliable, _⟩ := clamp_eq_some.mp hclamp
  obtain ⟨hmark, hevict, _⟩ := TimerTuning.clamped htimers
  obtain ⟨hmin, hmax, _⟩ := CongestionTuning.clamped hcongestion
  refine ⟨t, hclamp, hmark, hevict, ?_, hmin, hmax, (clamp_again_iff ht hclamp).mpr ⟨h.rtt, h.jitter, h.bw⟩⟩
  rw [hreliable]
  exact cfg.advanced.reliable.rtoMin_le_rtoMax

/-- The default knobs with their weights as the floating point numbers they are. -/
def rounded : AdvancedTuning :=
  let pair := Binary64.round (8 / 10)
  let rest := Binary64.round (2 / 10)
  { default with
    routingEwma := { RoutingEwmaTuning.default with
      rttEwmaOld := pair, rttEwmaNew := rest, jitterEwmaOld := pair, jitterEwmaNew := rest
      bwEwmaOld := Binary64.round (85 / 100), bwEwmaNew := Binary64.round (15 / 100) } }

theorem typed_rounded : rounded.Typed :=
  ⟨by decide, by decide, ⟨representable_round _, representable_round _, representable_round _,
    representable_round _, representable_round _, representable_round _⟩⟩

theorem rounded_sanitised : Sanitised ⟨rounded⟩ := by
  refine (sanitised_iff typed_rounded).mpr ⟨by decide +kernel, by decide, by decide, ?_, ?_, ?_⟩
  · exact .inr (by decide +kernel)
  · exact .inr (by decide +kernel)
  exact .inr (by decide +kernel)

def highRate : NetworkConfig :=
  ⟨{ rounded with congestion := { rounded.congestion with minRateBps := 60000000 } }⟩

def lastTick : NetworkConfig :=
  ⟨{ rounded with timers := { rounded.timers with staleTickSecs := 2 ^ 64 - 1 } }⟩

def unbalanced : NetworkConfig :=
  ⟨{ rounded with
      routingEwma := { rounded.routingEwma with
        bwEwmaOld := Binary64.round (4 / 100), bwEwmaNew := Binary64.round (1 / 100) } }⟩

theorem typed_unbalanced : unbalanced.advanced.Typed := ⟨by decide, by decide, { typed_rounded.weights with
    bwOld := representable_round _, bwNew := representable_round _ }⟩

/-- A least rate above the hard limit and a tick at the end of its type stop the program, and a second clamp changes
  the weights four and one hundredths. -/
theorem not_sanitised :
    fromNetworkConfig highRate = none ∧ fromNetworkConfig lastTick = none ∧ ¬ Sanitised unbalanced := by
  refine ⟨by decide +kernel, by decide +kernel, ?_⟩
  intro h
  obtain ⟨t, h, _, _, _, _, _, hagain⟩ := h
  rcases ((clamp_again_iff typed_unbalanced h).mp hagain).2.2 with hzero | hone
  · exact absurd hzero (by decide +kernel)
  exact absurd hone (by decide +kernel)

end AdvancedTuning

end ConnectUnit.Advanced
