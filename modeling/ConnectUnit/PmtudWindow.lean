import ConnectUnit.Pmtud

/-!
# The window of a peer

The window of a peer and the size of its probe in flight stay within bounds that depend on the phase.
-/

namespace ConnectUnit.Pmtud

variable {ph : Phase} {inf : Inflight} {q : PeerState} {size : Nat}

/-! ## The window of one peer -/

def Phase.IsBracketing : Phase → Prop
  | .raise | .binary | .downSearch => True
  | _ => False

def Phase.IsValidating : Phase → Prop
  | .revalidate | .recheck => True
  | _ => False

theorem Phase.IsValidating.isSearching (h : ph.IsValidating) : ph.isSearching = true := by
  cases ph with
  | revalidate | recheck => rfl
  | plateau | raise | binary | downSearch | frozen => exact h.elim

theorem Phase.IsValidating.not_bracketing (h : ph.IsValidating) : ¬ ph.IsBracketing := by
  cases ph with
  | revalidate | recheck => exact id
  | plateau | raise | binary | downSearch | frozen => exact h.elim

structure Bounds (ep : SocketAddr) (p : PeerState) : Prop where
  min_le : 576 ≤ p.lastGood
  le_stable : p.lastGood ≤ p.stable
  stable_le : p.stable ≤ 1500
  lt_bad : p.lastGood < p.firstBad
  bad_le : p.firstBad ≤ 1501
  floor : isRfc1918PrivateIp ep.ip = true → p.everAcked = false → 1220 ≤ p.lastGood

def DownBelow (p : PeerState) : Prop :=
  p.phase = .downSearch → p.firstBad ≤ p.stable ∨ p.firstBad = p.lastGood + 1

def Quiet (p : PeerState) : Prop := p.inflight = none ∧ p.grace = none

structure Window (ep : SocketAddr) (p : PeerState) : Prop extends Bounds ep p where
  down : DownBelow p
  bracketing : ∀ inf ∈ p.inflight, p.phase.IsBracketing → p.lastGood < inf.size ∧ inf.size < p.firstBad
  validating : ∀ inf ∈ p.inflight, p.phase.IsValidating → 576 ≤ inf.size ∧ inf.size ≤ 1500
  searching : ∀ inf ∈ p.inflight, p.grace = none ∧ p.phase.isSearching = true
  grace : ∀ g ∈ p.grace, p.phase.IsValidating ∧ 576 ≤ g.size ∧ g.size ≤ 1500

variable {ep : SocketAddr} {p : PeerState} {k : Knobs} {now : Instant}

theorem Window.of_quiet (hb : Bounds ep p) (hd : DownBelow p) (hq : Quiet p) : Window ep p where
  toBounds := hb
  down := hd
  bracketing := by intro inf h; rw [hq.1] at h; cases h
  validating := by intro inf h; rw [hq.1] at h; cases h
  searching := by intro inf h; rw [hq.1] at h; cases h
  grace := by intro g h; rw [hq.2] at h; cases h

theorem le_clampSize {n : Nat} : 576 ≤ clampSize n := Nat.le_max_left _ _

theorem clampSize_le {n : Nat} : clampSize n ≤ 1500 := by
  unfold clampSize minMtuBound maxMtu
  omega

theorem clampSize_eq {n : Nat} (h : 576 ≤ n) (h' : n ≤ 1500) : clampSize n = n := by
  unfold clampSize minMtuBound maxMtu
  omega

theorem Window.inflight_size (h : Window ep p) (hi : inf ∈ p.inflight) : 576 ≤ inf.size ∧ inf.size ≤ 1500 := by
  have hs := (h.searching inf hi).2
  have hb := h.bracketing inf hi
  have hv := h.validating inf hi
  have := h.min_le
  have := h.bad_le
  cases hp : p.phase with
  | raise | binary | downSearch =>
    rw [hp] at hb
    have := hb trivial
    omega
  | revalidate | recheck => rw [hp] at hv; exact hv trivial
  | plateau | frozen => rw [hp] at hs; cases hs

theorem Window.quiet_of_rest (h : Window ep p) (hp : p.phase = .plateau ∨ p.phase = .frozen) : Quiet p := by
  constructor
  · refine Option.eq_none_iff_forall_not_mem.mpr fun inf hi => ?_
    have hs := (h.searching inf hi).2
    rcases hp with hp | hp
    · rw [hp] at hs; cases hs
    rw [hp] at hs; cases hs
  refine Option.eq_none_iff_forall_not_mem.mpr fun g hg => ?_
  have hv := (h.grace g hg).1
  rcases hp with hp | hp
  · rw [hp] at hv; exact hv
  rw [hp] at hv; exact hv

theorem window_default (hl : q.lastGood = 1220) (hs : q.stable = 1220) (hf : q.firstBad = 1501)
    (hd : q.phase = .plateau) (hq : Quiet q) : Window ep q := by
  refine .of_quiet ⟨?_, ?_, ?_, ?_, ?_, ?_⟩ ?_ hq
  · omega
  · omega
  · omega
  · omega
  · omega
  · intro _ _; omega
  · intro h; rw [hd] at h; cases h

theorem window_new : Window ep (PeerState.new k now) := window_default rfl rfl rfl rfl ⟨rfl, rfl⟩

theorem window_healed : Window ep (p.healed k now) := window_default rfl rfl rfl rfl ⟨rfl, rfl⟩

/-! ## Changes of phase -/

theorem Bounds.of_fields (h : Bounds ep p) (hl : q.lastGood = p.lastGood)
    (hs : q.stable = p.stable) (hf : q.firstBad = p.firstBad) (he : q.everAcked = p.everAcked) : Bounds ep q where
  min_le := by rw [hl]; exact h.min_le
  le_stable := by rw [hl, hs]; exact h.le_stable
  stable_le := by rw [hs]; exact h.stable_le
  lt_bad := by rw [hl, hf]; exact h.lt_bad
  bad_le := by rw [hf]; exact h.bad_le
  floor := by rw [hl, he]; exact h.floor

theorem Bounds.acked (h : Bounds ep p) : Bounds ep { p with inflight := none, grace := none, everAcked := true } :=
  ⟨h.min_le, h.le_stable, h.stable_le, h.lt_bad, h.bad_le, fun _ he => by cases he⟩

theorem Bounds.enterFrozen (h : Bounds ep p) : Window ep (p.enterFrozen k now) := by
  refine .of_quiet (h.of_fields rfl rfl rfl rfl) ?_ ⟨rfl, rfl⟩
  intro hp; cases hp

theorem countCampaign_spec : ∃ s n start, p.countCampaign k =
    { p with stable := s, consecutiveLowerCampaigns := n, downFromStable := start } ∧
      (s = p.stable ∨ s = p.lastGood) := by
  unfold PeerState.countCampaign
  split
  · exact ⟨_, _, _, rfl, .inl rfl⟩
  dsimp only
  split
  · split
    · exact ⟨_, _, _, rfl, .inr rfl⟩
    · exact ⟨_, _, _, rfl, .inl rfl⟩
  · exact ⟨_, _, _, rfl, .inl rfl⟩

theorem enterPlateau_spec (p : PeerState) (k : Knobs) (now : Instant) : ∃ s n start, p.enterPlateau k now = { p with
      inflight := none, grace := none, phase := .plateau, nextRaiseAt := now + k.raisePeriod, probesUsed := 0,
      step := k.raiseStep, stable := s, consecutiveLowerCampaigns := n, downFromStable := start } ∧
      (s = p.stable ∨ s = p.lastGood) := countCampaign_spec

section
variable (h : Bounds ep p)
include h

theorem Bounds.enterPlateau : Window ep (p.enterPlateau k now) := by
  obtain ⟨s, n, start, heq, hs⟩ := enterPlateau_spec p k now
  have hle : p.lastGood ≤ s ∧ s ≤ 1500 := by
    have := h.le_stable
    have := h.stable_le
    rcases hs with hs | hs
    · omega
    omega
  rw [heq]
  refine .of_quiet ⟨h.min_le, hle.1, hle.2, h.lt_bad, h.bad_le, h.floor⟩ ?_ ⟨rfl, rfl⟩
  intro hp; cases hp

theorem Bounds.finishDownsearchPlateau : Window ep (p.finishDownsearchPlateau k now) := by
  unfold PeerState.finishDownsearchPlateau
  refine Bounds.enterPlateau ?_
  split
  · exact h
  have hlt : p.lastGood < firstBadSentinel := by
    have := h.le_stable
    have := h.stable_le
    unfold firstBadSentinel maxMtu
    omega
  exact ⟨h.min_le, h.le_stable, h.stable_le, hlt, le_refl _, h.floor⟩

theorem Bounds.softDown : Window ep (p.softDown k now ep) := by
  have hdown : 576 ≤ p.softDownLastGood ∧ p.softDownLastGood ≤ p.stable := by
    have := h.min_le
    have := h.le_stable
    unfold PeerState.softDownLastGood minMtuBound
    split
    · omega
    omega
  have hst := h.stable_le
  unfold PeerState.softDown
  generalize hlg : (if isRfc1918PrivateIp ep.ip && !p.everAcked then max p.softDownLastGood defaultMtu
    else p.softDownLastGood) = newLg
  have hnew : 576 ≤ newLg ∧ newLg ≤ p.stable ∧
      (isRfc1918PrivateIp ep.ip = true → p.everAcked = false → 1220 ≤ newLg) := by
    have hfl := h.floor
    have := h.le_stable
    split at hlg
    · rename_i hc
      simp only [Bool.and_eq_true, Bool.not_eq_true'] at hc
      have := hfl hc.1 hc.2
      unfold defaultMtu at hlg
      omega
    rename_i hc
    refine ⟨by omega, by omega, fun hpriv hack => ?_⟩
    simp [hpriv, hack] at hc
  have hb : ∀ q : PeerState, q.lastGood = newLg → q.stable = p.stable → q.firstBad = max p.stable (newLg + 1) →
      q.everAcked = p.everAcked → Bounds ep q := by
    intro q hl hs hf he
    refine ⟨?_, ?_, ?_, ?_, ?_, ?_⟩
    · omega
    · omega
    · omega
    · omega
    · omega
    · rw [he, hl]; exact hnew.2.2
  dsimp only
  split
  · exact Bounds.finishDownsearchPlateau (hb _ rfl rfl rfl rfl)
  refine .of_quiet (hb _ rfl rfl rfl rfl) ?_ ⟨rfl, rfl⟩
  intro _
  show max p.stable (newLg + 1) ≤ p.stable ∨ max p.stable (newLg + 1) = newLg + 1
  omega

theorem Bounds.closeOrFreeze (hd : DownBelow p) (hq : Quiet p) : Window ep (p.closeOrFreeze k now) := by
  unfold PeerState.closeOrFreeze
  split
  · split
    · exact h.finishDownsearchPlateau
    · exact h.enterPlateau
  unfold PeerState.maybeBudgetFreeze
  split
  · exact .of_quiet h hd hq
  split
  · exact h.enterFrozen
  exact .of_quiet h hd hq

theorem Bounds.lower {sz : Nat} (hlo : p.lastGood < sz) (hhi : sz < p.firstBad) {st : Nat} :
    Bounds ep { p with inflight := none, firstBad := sz, step := st, phase := ph } :=
  ⟨h.min_le, h.le_stable, h.stable_le, hlo, le_trans (le_of_lt hhi) h.bad_le, h.floor⟩

theorem Bounds.confirmedFail (hd : DownBelow p) (hg : p.grace = none)
    (hs : p.phase.IsBracketing → p.lastGood < size ∧ size < p.firstBad) (hp : p.phase.isSearching = true) :
    Window ep (p.confirmedFail k now ep size) := by
  have hmin := h.min_le
  have hmax := h.bad_le
  unfold PeerState.confirmedFail
  cases hph : p.phase with
  | raise =>
    rw [hph] at hs
    obtain ⟨hlo, hhi⟩ := hs trivial
    simp only [clampSize_eq (show 576 ≤ size by omega) (show size ≤ 1500 by omega)]
    refine (h.lower hlo hhi).closeOrFreeze ?_ ⟨rfl, hg⟩
    intro hc; cases hc
  | binary =>
    rw [hph] at hs
    obtain ⟨hlo, hhi⟩ := hs trivial
    have hmn : min size p.firstBad = size := min_eq_left (le_of_lt hhi)
    simp only [clampSize_eq (show 576 ≤ size by omega) (show size ≤ 1500 by omega), hmn]
    refine (h.lower hlo hhi).closeOrFreeze ?_ ⟨rfl, hg⟩
    intro hc; cases hc
  | downSearch =>
    rw [hph] at hs
    obtain ⟨hlo, hhi⟩ := hs trivial
    have hmn : min size p.firstBad = size := min_eq_left (le_of_lt hhi)
    simp only [clampSize_eq (show 576 ≤ size by omega) (show size ≤ 1500 by omega), hmn]
    refine (h.lower hlo hhi).closeOrFreeze ?_ ⟨rfl, hg⟩
    intro _
    rcases hd hph with hle | heq
    · exact .inl (le_trans (le_of_lt hhi) hle)
    omega
  | revalidate =>
    dsimp only
    split
    · refine .of_quiet (h.of_fields rfl rfl rfl rfl) ?_ ⟨rfl, rfl⟩
      intro hc; cases hc
    refine .of_quiet (h.of_fields rfl rfl rfl rfl) ?_ ⟨rfl, rfl⟩
    intro hc; cases hc
  | recheck => exact h.softDown
  | plateau | frozen => rw [hph] at hp; cases hp

end

/-! ## Steps of a tick -/

theorem Window.measured (h : Window ep p) {rtt : ℚ} {alive : Bool} :
    Window ep { p with rttMs := rtt, largeAlive := alive } :=
  ⟨h.toBounds.of_fields rfl rfl rfl rfl, h.down, h.bracketing, h.validating, h.searching, h.grace⟩

theorem Window.graceExpired (h : Window ep p) {g : GraceProbe} (hg : p.grace = some g) :
    Window ep (PeerState.confirmedFail { p with grace := none } k now ep g.size) := by
  have hv := (h.grace g (by rw [hg]; rfl)).1
  have hb : Bounds ep { p with grace := none } := h.toBounds.of_fields rfl rfl rfl rfl
  exact hb.confirmedFail h.down rfl (fun hbr => absurd hbr hv.not_bracketing) hv.isSearching

theorem timedOut_again (h : Window ep p) (hi : p.inflight = some inf) {id : UInt32} {dl : Instant}
    {n used : Nat} : Window ep { p with inflight := some ⟨id, inf.size, dl, n⟩, probesUsed := used } := by
  have hmem : inf ∈ p.inflight := by rw [hi]; rfl
  refine ⟨h.toBounds.of_fields rfl rfl rfl rfl, h.down, ?_, ?_, ?_, h.grace⟩
  · intro inf' hi'; cases hi'; exact h.bracketing inf hmem
  · intro inf' hi'; cases hi'; exact h.validating inf hmem
  intro inf' hi'; cases hi'; exact h.searching inf hmem

theorem Window.timedOut (h : Window ep p) (hi : p.inflight = some inf) {id : UInt32} :
    Window ep (p.timedOut k now ep id inf).1 := by
  have hmem : inf ∈ p.inflight := by rw [hi]; rfl
  obtain ⟨hg, hsearch⟩ := h.searching inf hmem
  have hsize := h.inflight_size hmem
  unfold PeerState.timedOut
  dsimp only
  split
  · split
    · rename_i hr
      rw [if_neg (fun hc => hc.1 hr)]
      exact timedOut_again h hi
    · split
      · exact Bounds.enterFrozen (h.toBounds.of_fields rfl rfl rfl rfl)
      · exact timedOut_again h hi
  split
  · rename_i hph
    refine ⟨h.toBounds.of_fields rfl rfl rfl rfl, h.down, ?_, ?_, ?_, ?_⟩
    · intro inf' hi'; cases hi'
    · intro inf' hi'; cases hi'
    · intro inf' hi'; cases hi'
    · intro g hg'
      cases hg'
      refine ⟨?_, hsize⟩
      rcases hph with hph | hph
      · show p.phase.IsValidating; rw [show p.phase = _ from hph]; trivial
      show p.phase.IsValidating; rw [show p.phase = _ from hph]; trivial
  have hb : Bounds ep { p with inflight := none } := h.toBounds.of_fields rfl rfl rfl rfl
  exact hb.confirmedFail h.down hg (h.bracketing inf hmem) hsearch

theorem Bounds.startSearch (h : Bounds ep p) (hq : Quiet p) : Window ep (p.startSearch k) := by
  refine .of_quiet (h.of_fields rfl rfl rfl rfl) ?_ hq
  intro hp
  unfold PeerState.startSearch at hp
  dsimp only at hp
  split at hp
  · cases hp
  cases hp

theorem Window.startPhase (h : Window ep p) : Window ep (p.startPhase k now) := by
  unfold PeerState.startPhase
  split
  · exact h
  rename_i hidle
  simp only [not_or, Bool.not_eq_true, Option.isSome_eq_false_iff, Option.isNone_iff_eq_none] at hidle
  split
  · split
    · exact h.toBounds.startSearch hidle
    · exact h
  · split
    · exact Bounds.startSearch (h.toBounds.of_fields rfl rfl rfl rfl) hidle
    · exact h
  · exact h

theorem raiseTarget_spec {t : Nat} (h : p.raiseTarget = some t) : p.lastGood < t ∧ t < p.firstBad ∧ t ≤ 1500 := by
  unfold PeerState.raiseTarget at h
  split at h
  · cases h
  dsimp only at h
  split at h
  · cases h
  split at h
  · cases h
    unfold maxMtu at *
    omega
  · cases h

theorem binaryTarget_spec (h : Bounds ep p) {t : Nat} (ht : p.binaryTarget = some t) :
    p.lastGood < t ∧ t < p.firstBad := by
  have := h.min_le
  have := h.bad_le
  unfold PeerState.binaryTarget at ht
  dsimp only at ht
  split at ht
  · cases ht
  split at ht
  · rename_i hmid
    rw [clampSize_eq (by omega) (by omega)] at ht
    cases ht
    exact hmid
  · cases ht

structure Asks (ep : SocketAddr) (p : PeerState) (size : Nat) : Prop extends Bounds ep p where
  quiet : Quiet p
  down : DownBelow p
  bracketing : p.phase.IsBracketing → p.lastGood < size ∧ size < p.firstBad
  searching : p.phase.isSearching = true

theorem Asks.beginProbe (h : Asks ep p size) (id : UInt32) (dl : Instant) (n : Nat) :
    Window ep (p.beginProbe id size dl n) := by
  refine ⟨h.toBounds.of_fields rfl rfl rfl rfl, h.down, ?_, ?_, ?_, ?_⟩
  · intro inf hi hbr
    cases hi
    have := h.bracketing hbr
    have := h.min_le
    have := h.bad_le
    show p.lastGood < clampSize size ∧ clampSize size < p.firstBad
    rw [clampSize_eq (by omega) (by omega)]
    exact h.bracketing hbr
  · intro inf hi _; cases hi; exact ⟨le_clampSize, clampSize_le⟩
  · intro inf hi; cases hi; exact ⟨rfl, h.searching⟩
  · intro g hg; cases hg

inductive NextProbe (k : Knobs) (now : Instant) (p : PeerState) : PeerState × Option Nat → Prop
  | idle : NextProbe k now p (p, none)
  | frozen : NextProbe k now p (p.enterFrozen k now, none)
  | closed : p.phase = .binary → p.WindowClosed k.resolveEpsilon → NextProbe k now p (p.enterPlateau k now, none)
  | finished : p.phase = .downSearch → p.WindowClosed k.resolveEpsilon →
      NextProbe k now p (p.finishDownsearchPlateau k now, none)
  | raise {size : Nat} : Quiet p → p.phase = .raise → p.raiseTarget = some size → NextProbe k now p (p, some size)
  | bisect {size : Nat} : Quiet p → p.phase = .binary ∨ p.phase = .downSearch → p.binaryTarget = some size →
      NextProbe k now p (p, some size)
  | validate : Quiet p → p.phase.IsValidating → NextProbe k now p (p, some (clampSize p.stable))

theorem maybeBudgetFreeze_cases (p : PeerState) (k : Knobs) (now : Instant) :
    p.maybeBudgetFreeze k now = (p.enterFrozen k now, true) ∨ p.maybeBudgetFreeze k now = (p, false) := by
  unfold PeerState.maybeBudgetFreeze
  by_cases hr : p.phase = .recheck
  · exact .inr (if_pos hr)
  rw [if_neg hr]
  by_cases hbudget : k.maxProbesPerSearch ≤ p.probesUsed
  · exact .inl (if_pos hbudget)
  exact .inr (if_neg hbudget)

theorem nextProbe_spec (p : PeerState) (k : Knobs) (now : Instant) : NextProbe k now p (p.nextProbe k now) := by
  unfold PeerState.nextProbe
  split
  · exact .idle
  rename_i hidle
  simp only [not_or, Bool.not_eq_true, Option.isSome_eq_false_iff, Option.isNone_iff_eq_none] at hidle
  rcases maybeBudgetFreeze_cases p k now with hfreeze | hfreeze
  · rw [hfreeze]
    exact .frozen
  rw [hfreeze]
  dsimp only
  cases hp : p.phase with
  | raise =>
    cases ht : p.raiseTarget with
    | none => exact .idle
    | some size => exact .raise hidle hp ht
  | binary =>
    dsimp only
    split
    · rename_i hc; exact .closed hp hc
    cases ht : p.binaryTarget with
    | none => exact .idle
    | some size => exact .bisect hidle (.inl hp) ht
  | downSearch =>
    dsimp only
    split
    · rename_i hc; exact .finished hp hc
    cases ht : p.binaryTarget with
    | none => exact .idle
    | some size => exact .bisect hidle (.inr hp) ht
  | revalidate | recheck => exact .validate hidle (by rw [hp]; trivial)
  | plateau | frozen => exact .idle

theorem Window.nextProbe {r : PeerState × Option Nat} (h : Window ep p) (hr : NextProbe k now p r) :
    Window ep r.1 ∧ ∀ size ∈ r.2, Asks ep r.1 size := by
  have hb := h.toBounds
  cases hr with
  | idle => exact ⟨h, fun _ hs => by cases hs⟩
  | frozen => exact ⟨hb.enterFrozen, fun _ hs => by cases hs⟩
  | closed _ _ => exact ⟨hb.enterPlateau, fun _ hs => by cases hs⟩
  | finished _ _ => exact ⟨hb.finishDownsearchPlateau, fun _ hs => by cases hs⟩
  | raise hq hp ht =>
    refine ⟨h, fun size hs => ?_⟩
    cases hs
    have hspec := raiseTarget_spec ht
    exact ⟨hb, hq, h.down, fun _ => ⟨hspec.1, hspec.2.1⟩, by rw [hp]; rfl⟩
  | bisect hq hp ht =>
    refine ⟨h, fun size hs => ?_⟩
    cases hs
    refine ⟨hb, hq, h.down, fun _ => binaryTarget_spec hb ht, ?_⟩
    rcases hp with hp | hp
    · rw [hp]; rfl
    rw [hp]; rfl
  | validate hq hp =>
    refine ⟨h, fun size hs => ?_⟩
    cases hs
    exact ⟨hb, hq, h.down, fun hbr => absurd hbr hp.not_bracketing, hp.isSearching⟩

/-! ## Acknowledgements and send errors -/

theorem raiseStable_spec : ∃ n : PeerState → Nat, ∀ p : PeerState, p.raiseStable =
      { p with stable := max p.stable p.lastGood, consecutiveLowerCampaigns := n p } := by
  refine ⟨fun p => if p.stable < p.lastGood then 0 else p.consecutiveLowerCampaigns, fun p => ?_⟩
  unfold PeerState.raiseStable
  dsimp only
  split
  · rename_i h
    rw [max_eq_right (le_of_lt h)]
  rename_i h
  rw [max_eq_left (not_lt.mp h)]

theorem Bounds.raised (h : Bounds ep p) {sz : Nat} (hlo : p.lastGood ≤ sz) (hhi : sz < p.firstBad)
    (hl : q.lastGood = sz) (hs : q.stable = max p.stable sz) (hf : q.firstBad = p.firstBad)
    (he : q.everAcked = p.everAcked) : Bounds ep q := by
  have h1 := h.min_le
  have h2 := h.bad_le
  have h3 := h.stable_le
  refine ⟨?_, ?_, ?_, ?_, ?_, ?_⟩
  · omega
  · omega
  · omega
  · omega
  · omega
  · intro hp hn
    rw [he] at hn
    rw [hl]
    exact le_trans (h.floor hp hn) hlo

section
variable (h : Window ep p)
include h

theorem Window.acked (hi : p.inflight = some inf) : Window ep (p.acked k now inf.size) := by
  have hmem : inf ∈ p.inflight := by rw [hi]; rfl
  have hb := h.toBounds.acked
  have hin := h.bracketing inf hmem
  unfold PeerState.acked
  cases hp : p.phase with
  | raise =>
    rw [hp] at hin
    obtain ⟨hlo, hhi⟩ := hin trivial
    obtain ⟨n, hn⟩ := raiseStable_spec
    simp only [hn]
    split
    · refine Bounds.enterPlateau ?_
      split
      · have hr : Bounds ep { p with
            inflight := none, grace := none, everAcked := true, lastGood := inf.size, stable :=
              max p.stable inf.size } :=
          hb.raised (le_of_lt hlo) hhi rfl rfl rfl rfl
        have hlt : inf.size < firstBadSentinel := lt_of_lt_of_le hhi h.bad_le
        exact ⟨hr.min_le, hr.le_stable, hr.stable_le, hlt, le_refl _, hr.floor⟩
      · exact hb.raised (le_of_lt hlo) hhi rfl rfl rfl rfl
    refine .of_quiet (hb.raised (le_of_lt hlo) hhi rfl rfl rfl rfl) ?_ ⟨rfl, rfl⟩
    intro hc; cases hc
  | binary =>
    rw [hp] at hin
    obtain ⟨hlo, hhi⟩ := hin trivial
    obtain ⟨n, hn⟩ := raiseStable_spec
    simp only [hn]
    rw [max_eq_left (le_of_lt hlo)]
    split
    · exact Bounds.enterPlateau (hb.raised (le_of_lt hlo) hhi rfl rfl rfl rfl)
    refine .of_quiet (hb.raised (le_of_lt hlo) hhi rfl rfl rfl rfl) ?_ ⟨rfl, rfl⟩
    intro hc; cases hc
  | downSearch =>
    rw [hp] at hin
    obtain ⟨hlo, hhi⟩ := hin trivial
    have hst : inf.size < p.stable := by
      rcases h.down hp with hd | hd
      · omega
      omega
    have hmax : max p.stable inf.size = p.stable := max_eq_left (le_of_lt hst)
    simp only [max_eq_left (le_of_lt hlo)]
    split
    · exact Bounds.finishDownsearchPlateau (hb.raised (le_of_lt hlo) hhi rfl hmax.symm rfl rfl)
    refine .of_quiet (hb.raised (le_of_lt hlo) hhi rfl hmax.symm rfl rfl) ?_ ⟨rfl, rfl⟩
    intro _
    rcases h.down hp with hd | hd
    · exact .inl hd
    omega
  | revalidate | recheck => exact hb.enterPlateau
  | plateau | frozen =>
    have hs := (h.searching inf hmem).2
    rw [hp] at hs; cases hs

theorem Window.lateAcked : Window ep (p.lateAcked k now) := by
  refine Bounds.enterPlateau ?_
  exact ⟨h.min_le, h.le_stable, h.stable_le, h.lt_bad, h.bad_le, fun _ he => by cases he⟩

theorem Window.sendHardFailed (hi : p.inflight = some inf) : Window ep (p.sendHardFailed k now ep inf.size) := by
  have hmem : inf ∈ p.inflight := by rw [hi]; rfl
  unfold PeerState.sendHardFailed
  split
  · exact Bounds.softDown (h.toBounds.of_fields rfl rfl rfl rfl)
  obtain ⟨hg, hs⟩ := h.searching inf hmem
  exact h.toBounds.confirmedFail h.down hg (h.bracketing inf hmem) hs

/-! ## Hints, tuning and pins -/

theorem Window.hinted (hp : p.phase = .plateau ∨ p.phase = .frozen)
    (hq : q = { p with nextRaiseAt := now, lastRevalidateHintAt := some now } ∨
      q = { p with nextRaiseAt := now, lastEarlyWakeAt := some now }) : Window ep q := by
  have hquiet := h.quiet_of_rest hp
  rcases hq with hq | hq
  · subst hq; exact .of_quiet (h.toBounds.of_fields rfl rfl rfl rfl) h.down hquiet
  subst hq; exact .of_quiet (h.toBounds.of_fields rfl rfl rfl rfl) h.down hquiet

theorem Window.retuned : Window ep (p.retuned k now) := by
  unfold PeerState.retuned
  dsimp only
  split
  · refine .of_quiet (h.toBounds.of_fields rfl rfl rfl rfl) ?_ ⟨rfl, rfl⟩
    intro hc; cases hc
  exact .of_quiet (h.toBounds.of_fields rfl rfl rfl rfl) h.down ⟨rfl, rfl⟩

end

end ConnectUnit.Pmtud
