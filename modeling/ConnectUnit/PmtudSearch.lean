import ConnectUnit.PmtudSound

/-!
# The search on an ideal path

On a path that carries exactly the packets of up to `M` bytes, `lastGood` and
`firstBad` bracket `M` throughout, and an upward search that comes to rest has
closed the bracket down to the tuned resolution.
-/

open Machine (Each stateAt)

namespace ConnectUnit.Pmtud

open Spending

variable {inf : Inflight} {r : PeerState × Option Nat} {k : Knobs} {q : PeerState}
variable {size n : Nat}

structure Bracket (ep : SocketAddr) (M : Nat) (p : PeerState) : Prop extends Window ep p where
  default_le : 1220 ≤ p.lastGood
  good : p.lastGood ≤ M
  bad : M < p.firstBad
  level : p.stable = p.lastGood ∧ p.downFromStable = none
  upward : p.phase ≠ .recheck ∧ p.phase ≠ .downSearch
  step_pos : 0 < p.step
  patient : p.grace = none
  validates : p.phase = .revalidate → p.raiseTarget = none ∧ ∀ inf ∈ p.inflight, inf.size ≤ M

def Closed (k : Knobs) (M : Nat) (p : PeerState) : Prop :=
  M - p.lastGood < k.resolveEpsilon ∨ p.lastGood = M ∧ M = 1500

def Settled (k : Knobs) (M : Nat) (p : PeerState) : Prop := p.phase = .plateau → Closed k M p

/-- No probe that the path carries is overdue at `now`. -/
def Timely (now : Instant) (M : Nat) (p : PeerState) : Prop :=
  ∀ inf ∈ p.inflight, inf.size ≤ M → inf.probeId ≠ 0 → now < inf.deadline

structure Resolved (k : Knobs) (now : Instant) (ep : SocketAddr) (M : Nat) (p : PeerState) : Prop
    extends Bracket ep M p where
  timely : Timely now M p
  settled : Settled k M p

structure Advances (k : Knobs) (now : Instant) (ep : SocketAddr) (M : Nat) (p q : PeerState) : Prop
    extends Bracket ep M q where
  timely : Timely now M q
  settled : Settled k M p → Settled k M q

section
variable {ep : SocketAddr} {p q : PeerState} {k : Knobs} {now : Instant} {M : Nat}

theorem Timely.of_none (h : p.inflight = none) : Timely now M p := by
  intro inf hi
  rw [h] at hi
  cases hi

theorem Resolved.advances (h : Resolved k now ep M q) : Advances k now ep M p q :=
  ⟨h.toBracket, h.timely, fun _ => h.settled⟩

theorem Bracket.stays (h : Bracket ep M p) (ht : Timely now M p) : Advances k now ep M p p := ⟨h, ht, id⟩

/-! ## When nothing is left to probe -/

theorem raiseTarget_none (hstep : 0 < p.step) (h : p.raiseTarget = none) :
    1500 ≤ p.lastGood ∨ p.firstBad ≤ p.lastGood + 1 := by
  unfold PeerState.raiseTarget at h
  split at h
  · rename_i hmax; exact .inl hmax
  rename_i hmax
  dsimp only at h
  unfold maxMtu at *
  split at h
  · omega
  split at h
  · cases h
  omega

theorem closed_of_no_target (hgood : p.lastGood ≤ M) (hM : M ≤ 1500) (hbad : M < p.firstBad) (hstep : 0 < p.step)
    (h : p.raiseTarget = none) : Closed k M p := by
  have heps := k.resolveEpsilon_pos
  unfold Closed
  rcases raiseTarget_none hstep h with h | h
  · omega
  omega

theorem closed_of_windowClosed (hgood : p.lastGood ≤ M) (hbad : M < p.firstBad)
    (h : p.WindowClosed k.resolveEpsilon) : Closed k M p := by
  unfold PeerState.WindowClosed at h
  unfold Closed
  omega

/-! ## The bracket through each function -/

structure Span (M : Nat) (p : PeerState) : Prop where
  default_le : 1220 ≤ p.lastGood
  good : p.lastGood ≤ M
  bad : M < p.firstBad
  level : p.stable = p.lastGood ∧ p.downFromStable = none

theorem Bracket.span (h : Bracket ep M p) : Span M p := ⟨h.default_le, h.good, h.bad, h.level⟩

theorem enterPlateau_of_level (h : p.downFromStable = none) : p.enterPlateau k now = { p with
      inflight := none, grace := none, phase := .plateau, nextRaiseAt := now + k.raisePeriod, probesUsed := 0,
      step := k.raiseStep } := by
  unfold PeerState.enterPlateau PeerState.countCampaign
  dsimp only
  split
  · rfl
  rename_i start hs
  rw [h] at hs
  cases hs

section
variable (h : Span M p) (hw : Bounds ep p)
include h hw

theorem Span.resolved_plateau (hc : Closed k M p) : Resolved k now ep M (p.enterPlateau k now) := by
  have hwin : Window ep (p.enterPlateau k now) := hw.enterPlateau
  rw [enterPlateau_of_level h.level.2] at hwin ⊢
  exact ⟨⟨hwin, h.default_le, h.good, h.bad, h.level, ⟨nofun, nofun⟩, k.raiseStep_pos, rfl, nofun⟩, .of_none rfl,
    fun _ => hc⟩

theorem Span.resolved_frozen (hstep : 0 < p.step) : Resolved k now ep M (p.enterFrozen k now) := by
  exact ⟨⟨hw.enterFrozen, h.default_le, h.good, h.bad, h.level, ⟨nofun, nofun⟩, hstep, rfl, nofun⟩,
    .of_none rfl, nofun⟩

theorem Span.resolved_binary (hq : Quiet p) (hp : p.phase = .binary)
    (hstep : 0 < p.step) : Resolved k now ep M p := by
  have hnot : p.phase ≠ .recheck ∧ p.phase ≠ .downSearch := by rw [hp]; exact ⟨nofun, nofun⟩
  refine ⟨⟨.of_quiet hw (fun hd => absurd hd hnot.2) hq, h.default_le, h.good, h.bad, h.level, hnot, hstep, hq.2, ?_⟩,
    .of_none hq.1, ?_⟩
  · intro hr; rw [hp] at hr; cases hr
  intro hr; rw [hp] at hr; cases hr

theorem Span.closeOrFreeze (hq : Quiet p) (hp : p.phase = .binary)
    (hstep : 0 < p.step) : Resolved k now ep M (p.closeOrFreeze k now) := by
  unfold PeerState.closeOrFreeze
  split
  · rename_i hc
    rw [hp, if_neg nofun]
    exact h.resolved_plateau hw (closed_of_windowClosed h.good h.bad hc)
  unfold PeerState.maybeBudgetFreeze
  rw [hp, if_neg nofun]
  split
  · exact h.resolved_frozen hw hstep
  exact h.resolved_binary hw hq hp hstep

end

theorem Bracket.confirmedFail (h : Bracket ep M p) (hi : p.inflight = some inf) (hbig : M < inf.size) :
    Resolved k now ep M (PeerState.confirmedFail { p with inflight := none } k now ep inf.size) := by
  have hmem : inf ∈ p.inflight := by rw [hi]; rfl
  have hin := h.bracketing inf hmem
  have hsz := h.inflight_size hmem
  have hval := h.validates
  unfold PeerState.confirmedFail
  simp only [clampSize_eq hsz.1 hsz.2]
  cases hp : p.phase with
  | raise =>
    rw [hp] at hin
    obtain ⟨hlo, hhi⟩ := hin trivial
    refine Span.closeOrFreeze ⟨h.default_le, h.good, hbig, h.level⟩ ?_ ⟨rfl, h.patient⟩ rfl k.raiseStep_pos
    exact h.toBounds.lower hlo hhi
  | binary =>
    rw [hp] at hin
    obtain ⟨hlo, hhi⟩ := hin trivial
    simp only [min_eq_left (le_of_lt hhi)]
    refine Span.closeOrFreeze ⟨h.default_le, h.good, hbig, h.level⟩ ?_ ⟨rfl, h.patient⟩ rfl h.step_pos
    exact h.toBounds.lower hlo hhi
  | revalidate => exact absurd ((hval hp).2 inf hmem) (Nat.not_le.mpr hbig)
  | recheck => exact absurd hp h.upward.1
  | downSearch => exact absurd hp h.upward.2
  | plateau | frozen =>
    have hs := (h.searching inf hmem).2
    rw [hp] at hs; cases hs

theorem Timely.size_gt (h : Timely now M p) (hi : p.inflight = some inf) (hdl : inf.deadline ≤ now)
    (hid : inf.probeId ≠ 0) : M < inf.size := by
  refine Nat.lt_of_not_le fun hle => ?_
  exact absurd (h inf (by rw [hi]; rfl) hle hid) (Nat.not_lt.mpr hdl)

section
variable (h : Bracket ep M p)
include h

theorem Bracket.timedOut (hi : p.inflight = some inf) (hbig : M < inf.size)
    {id : UInt32} : Resolved k now ep M (p.timedOut k now ep id inf).1 := by
  have hmem : inf ∈ p.inflight := by rw [hi]; rfl
  have hs := (h.searching inf hmem).2
  have hnr : p.phase ≠ .revalidate := fun hr => absurd ((h.validates hr).2 inf hmem) (Nat.not_le.mpr hbig)
  have hnp : p.phase ≠ .plateau := fun hr => by rw [hr] at hs; cases hs
  unfold PeerState.timedOut
  dsimp only
  split
  · rw [if_neg h.upward.1]
    split
    · exact Span.resolved_frozen ⟨h.default_le, h.good, h.bad, h.level⟩
        (h.toBounds.of_fields rfl rfl rfl rfl) h.step_pos
    refine ⟨⟨timedOut_again h.toWindow hi, h.default_le, h.good, h.bad, h.level, h.upward, h.step_pos,
      h.patient, fun hr => absurd hr hnr⟩, ?_, fun hr => absurd hr hnp⟩
    intro inf' hi' hle
    cases hi'
    exact absurd hle (Nat.not_le.mpr hbig)
  split
  · rename_i hph
    exact (hph.elim hnr h.upward.1).elim
  exact h.confirmedFail hi hbig

theorem Bracket.startSearch (hq : Quiet p) {at' : Instant} :
    Resolved k now ep M (PeerState.startSearch { p with nextRaiseAt := at' } k) := by
  have hw : Window ep (PeerState.startSearch { p with nextRaiseAt := at' } k) :=
    Bounds.startSearch (h.toBounds.of_fields rfl rfl rfl rfl) hq
  unfold PeerState.startSearch at hw ⊢
  dsimp only at hw ⊢
  split at hw
  · rename_i ht
    rw [if_pos ht]
    exact ⟨⟨hw, h.default_le, h.good, h.bad, h.level, ⟨nofun, nofun⟩, k.raiseStep_pos, h.patient, nofun⟩,
      .of_none hq.1, nofun⟩
  rename_i ht
  rw [if_neg ht]
  refine ⟨⟨hw, h.default_le, h.good, h.bad, h.level, ⟨nofun, nofun⟩, k.raiseStep_pos, h.patient, ?_⟩,
    .of_none hq.1, nofun⟩
  intro _
  refine ⟨Option.not_isSome_iff_eq_none.mp ht, fun inf hi => ?_⟩
  replace hi : inf ∈ p.inflight := hi
  rw [hq.1] at hi
  cases hi

theorem Bracket.startPhase (ht : Timely now M p) : Advances k now ep M p (p.startPhase k now) := by
  unfold PeerState.startPhase
  split
  · exact h.stays ht
  rename_i hidle
  simp only [not_or, Bool.not_eq_true, Option.isSome_eq_false_iff, Option.isNone_iff_eq_none] at hidle
  split
  · split
    · exact (h.startSearch hidle).advances
    · exact h.stays ht
  · split
    · exact (h.startSearch hidle).advances
    · exact h.stays ht
  · exact h.stays ht

theorem Bracket.asked (ht : Timely now M p) (hr : NextProbe k now p r) (hn : r.2 = none) :
    Advances k now ep M p r.1 := by
  cases hr with
  | idle => exact h.stays ht
  | frozen => exact (h.span.resolved_frozen h.toBounds h.step_pos).advances
  | closed _ hc => exact (h.span.resolved_plateau h.toBounds (closed_of_windowClosed h.good h.bad hc)).advances
  | finished hp _ => exact absurd hp h.upward.2
  | raise _ _ _ | bisect _ _ _ | validate _ _ => cases hn

theorem Bracket.probed (hr : NextProbe k now p r)
    (hs : r.2 = some size) {id : UInt32} {dl : Instant} (hdl : now < dl) :
    Advances k now ep M p (r.1.beginProbe id size dl n) := by
  have hw := ((h.toWindow.nextProbe hr).2 size (by rw [hs]; rfl)).beginProbe id dl n
  have hfresh : ∀ inf ∈ (r.1.beginProbe id size dl n).inflight, inf.deadline = dl ∧ inf.size = clampSize size := by
    intro inf hi; cases hi; exact ⟨rfl, rfl⟩
  have htimely : Timely now M (r.1.beginProbe id size dl n) := by
    intro inf hi _ _
    rw [(hfresh inf hi).1]
    exact hdl
  cases hr with
  | idle | frozen => cases hs
  | closed _ _ | finished _ _ => cases hs
  | raise hq hp ht =>
    have hne : ∀ ph, ph ≠ .raise → p.phase ≠ ph := fun ph hne he => hne (he.symm.trans hp)
    refine ⟨⟨hw, h.default_le, h.good, h.bad, h.level, h.upward, h.step_pos, rfl, fun hv => ?_⟩, htimely,
      fun _ hpl => ?_⟩
    · exact absurd hv (hne _ nofun)
    exact absurd hpl (hne _ nofun)
  | bisect hq hp ht =>
    have hne : ∀ ph, ph ≠ .binary → ph ≠ .downSearch → p.phase ≠ ph := by
      intro ph hb hd he
      rcases hp with hp | hp
      · exact hb (he.symm.trans hp)
      exact hd (he.symm.trans hp)
    refine ⟨⟨hw, h.default_le, h.good, h.bad, h.level, h.upward, h.step_pos, rfl, fun hv => ?_⟩, htimely,
      fun _ hpl => ?_⟩
    · exact absurd hv (hne _ nofun nofun)
    exact absurd hpl (hne _ nofun nofun)
  | validate hq hp =>
    cases hs
    refine ⟨⟨hw, h.default_le, h.good, h.bad, h.level, h.upward, h.step_pos, rfl, fun hv => ⟨(h.validates hv).1, ?_⟩⟩,
      htimely, fun _ hpl => ?_⟩
    · intro inf hi
      have hst : p.stable = p.lastGood := h.level.1
      have := h.good
      have := h.min_le
      have := h.stable_le
      have hclamp : clampSize p.stable = p.stable := clampSize_eq (by omega) (by omega)
      rw [(hfresh inf hi).2, hclamp, hclamp]
      omega
    rw [show p.phase = .plateau from hpl] at hp
    exact hp.elim

theorem TickStep.advances (ht : Timely now M p) (hs : TickStep k now ep p n q) : Advances k now ep M p q := by
  cases hs with
  | healed hn => exact absurd hn.2.2 (Nat.not_lt.mpr h.default_le)
  | measured rtt alive =>
    exact ⟨⟨h.toWindow.measured, h.default_le, h.good, h.bad, h.level, h.upward, h.step_pos, h.patient,
      h.validates⟩, ht, id⟩
  | graceExpired hg _ => rw [h.patient] at hg; cases hg
  | timedOut id hi hdl hid => exact (h.timedOut hi (ht.size_gt hi hdl hid)).advances
  | started => exact h.startPhase ht
  | asked heq => exact h.asked ht (nextProbe_of_eq heq) rfl
  | probed id dl heq hdl => exact h.probed (nextProbe_of_eq heq) rfl hdl

theorem Advances.steps (ht : Timely now M p) (hs : Spends (TickStep k now ep) p n q) : Advances k now ep M p q := by
  induction hs with
  | refl => exact h.stays ht
  | tail _ hstep ih =>
    have hn := TickStep.advances ih.toBracket ih.timely hstep
    exact ⟨hn.toBracket, hn.timely, fun hp => hn.settled (ih.settled hp)⟩

end

/-! ## Acknowledgements -/

theorem Span.raised (h : Span M p) {sz : Nat} (hlo : p.lastGood < sz) (hM : sz ≤ M) (hl : q.lastGood = sz)
    (hs : q.stable = max p.stable sz) (hf : M < q.firstBad) (hd : q.downFromStable = p.downFromStable) :
    Span M q := by
  have h1 := h.default_le
  have h2 := h.level.1
  refine ⟨?_, ?_, hf, ?_, ?_⟩
  · omega
  · omega
  · omega
  · rw [hd]; exact h.level.2

theorem Bracket.acked (h : Bracket ep M p) (hM : M ≤ 1500) (hi : p.inflight = some inf)
    (hsz : inf.size ≤ M) : Resolved k now ep M (p.acked k now inf.size) := by
  have hmem : inf ∈ p.inflight := by rw [hi]; rfl
  have hb := h.toBounds.acked
  have hin := h.bracketing inf hmem
  unfold PeerState.acked
  cases hp : p.phase with
  | raise =>
    rw [hp] at hin
    obtain ⟨hlo, hhi⟩ := hin trivial
    obtain ⟨n, hn⟩ := raiseStable_spec
    simp only [hn]
    have hstep : 0 < max (p.step * 2) k.raiseStep := lt_max_of_lt_right k.raiseStep_pos
    split
    · rename_i hnone
      have hnone' := Option.isNone_iff_eq_none.mp hnone
      split
      · rename_i hmax
        have hfull : inf.size = M ∧ M = 1500 := by
          replace hmax : 1500 ≤ inf.size := hmax
          omega
        have hlt : M < firstBadSentinel := Nat.lt_succ_of_le hM
        refine Span.resolved_plateau (h.span.raised hlo hsz rfl rfl hlt rfl) ?_ (.inr hfull)
        exact ⟨le_trans h.min_le (le_of_lt hlo), le_max_right _ _, max_le h.stable_le (le_trans hsz hM),
          lt_of_le_of_lt hsz hlt, le_refl _, fun _ he => nomatch he⟩
      refine Span.resolved_plateau (h.span.raised hlo hsz rfl rfl h.bad rfl)
        (hb.raised (le_of_lt hlo) hhi rfl rfl rfl rfl) ?_
      exact closed_of_no_target hsz hM h.bad hstep hnone'
    · have hs := h.span.raised hlo hsz (q := { p with
        inflight := none, grace := none, everAcked := true, phase := .raise, lastGood := inf.size,
        stable := max p.stable inf.size, step := max (p.step * 2) k.raiseStep })
        rfl rfl h.bad rfl
      refine ⟨⟨.of_quiet (hb.raised (le_of_lt hlo) hhi rfl rfl rfl rfl) nofun ⟨rfl, rfl⟩, hs.default_le, hs.good,
        hs.bad, hs.level, ⟨nofun, nofun⟩, hstep, rfl, nofun⟩, .of_none rfl, nofun⟩
  | binary =>
    rw [hp] at hin
    obtain ⟨hlo, hhi⟩ := hin trivial
    obtain ⟨n, hn⟩ := raiseStable_spec
    simp only [hn]
    rw [max_eq_left (le_of_lt hlo)]
    split
    · rename_i hc
      refine Span.resolved_plateau (h.span.raised hlo hsz rfl rfl h.bad rfl)
        (hb.raised (le_of_lt hlo) hhi rfl rfl rfl rfl) ?_
      exact closed_of_windowClosed hsz h.bad hc
    exact Span.resolved_binary (h.span.raised hlo hsz rfl rfl h.bad rfl)
      (hb.raised (le_of_lt hlo) hhi rfl rfl rfl rfl) ⟨rfl, rfl⟩ rfl h.step_pos
  | revalidate =>
    refine Span.resolved_plateau ⟨h.default_le, h.good, h.bad, h.level⟩ (hb.of_fields rfl rfl rfl rfl) ?_
    exact closed_of_no_target h.good hM h.bad h.step_pos (h.validates hp).1
  | recheck => exact absurd hp h.upward.1
  | downSearch => exact absurd hp h.upward.2
  | plateau | frozen =>
    have hs := (h.searching inf hmem).2
    rw [hp] at hs; cases hs

theorem bracket_new (hM : 1220 ≤ M) (hM' : M ≤ 1500) : Bracket ep M (PeerState.new k now) :=
  ⟨window_new, le_refl _, hM, Nat.lt_succ_of_le hM', ⟨rfl, rfl⟩, ⟨nofun, nofun⟩, k.raiseStep_pos, rfl, nofun⟩

/-! ## Runs on an ideal path -/

end

/-- The path to `ep` carries exactly the packets of up to `M` bytes: none of its probes of that size is
overdue at a tick, and no acknowledgement from its address is for a larger one. -/
def Ideal (ep : SocketAddr) (M : Nat) (d : PathMtuDiscovery) : Op → Prop
  | .onTick now _ _ => ∀ p, d.peers.lookup ep = some p → Timely now M p
  | .onAck peerAddr size _ _ _ => peerAddr.ip = ep.ip → size ≤ M
  | _ => False

section
variable {ep : SocketAddr} {d : PathMtuDiscovery} {M : Nat}

structure Searching (k : Knobs) (ep : SocketAddr) (M : Nat) (d : PathMtuDiscovery) : Prop where
  free : d.pinned = none
  knobs : d.knobs = k
  bracket : ∀ p, d.peers.lookup ep = some p → Bracket ep M p

def Follows (k : Knobs) (ep : SocketAddr) (M : Nat) (d : PathMtuDiscovery) (q : PeerState) : Prop :=
  Bracket ep M q ∧ ∀ p, d.peers.lookup ep = some p → Settled k M p → Settled k M q

section
variable (hM : 1220 ≤ M) (hM' : M ≤ 1500) (h : Searching k ep M d)
include hM hM' h

theorem Searching.onTick (now : Instant)
    (inputs : List PeerTickInput) (order : IterOrder) (hok : Ideal ep M d (.onTick now inputs order))
    (hq : (d.onTick now inputs order).1.peers.lookup ep = some q) : Follows k ep M d q := by
  obtain ⟨_, _, hpeer⟩ := onTick_spec d h.free now inputs order
  obtain ⟨p, ha, hs⟩ := (hpeer ep).2 q hq
  rw [h.knobs] at hs
  rcases ha with hp | ⟨hn, _, rfl⟩
  · have hadv := Advances.steps (h.bracket p hp) (hok p hp) hs
    refine ⟨hadv.toBracket, fun p' hp' => ?_⟩
    rw [hp] at hp'
    cases hp'
    exact hadv.settled
  have hadv := Advances.steps (M := M) (bracket_new hM hM') (.of_none rfl) hs
  refine ⟨hadv.toBracket, fun p' hp' => ?_⟩
  rw [hn] at hp'
  cases hp'

theorem Searching.onAck {peerAddr : SocketAddr}
    {probeId searchGen : UInt32} {now : Instant} (hok : Ideal ep M d (.onAck peerAddr size probeId searchGen now))
    (hq : (d.onAck peerAddr size probeId searchGen now).1.peers.lookup ep = some q) : Follows k ep M d q := by
  obtain ⟨_, _, hpeer⟩ := onAck_spec d peerAddr size probeId searchGen now
  obtain ⟨p, hp, hs⟩ := hpeer ep q hq
  rw [h.knobs] at hs
  have hb := h.bracket p hp
  cases hs with
  | untouched =>
    refine ⟨hb, fun p' hp' => ?_⟩
    rw [hp] at hp'
    cases hp'
    exact id
  | late hg => rw [hb.patient] at hg; cases hg
  | acked hi hsz hip =>
    have hle : size ≤ M := hok hip
    have hres : Resolved k now ep M _ := hb.acked hM' hi (by rw [hsz]; unfold clampSize minMtuBound maxMtu; omega)
    exact ⟨hres.toBracket, fun _ _ _ => hres.settled⟩

theorem Searching.follows {op : Op}
    (hok : Ideal ep M d op) (hq : (step d op).1.peers.lookup ep = some q) : Follows k ep M d q := by
  cases op with
  | onTick now inputs order => exact h.onTick hM hM' now inputs order hok hq
  | onAck peerAddr size probeId searchGen now => exact h.onAck hM hM' hok hq
  | onSendHardFail _ _ _ | setPinned _ _ | applyTuning _ _ | setRaisePeriod _ | requestRevalidate _ _
  | requestEarlyWake _ _ | removePeer _ => exact hok.elim

theorem Searching.step (op : Op) (hok : Ideal ep M d op) : Searching k ep M (step d op).1 := by
  refine ⟨?_, ?_, fun q hq => (h.follows hM hM' hok hq).1⟩
  all_goals
    cases op with
    | onTick now inputs order =>
      obtain ⟨hp, hk, _⟩ := onTick_spec d h.free now inputs order
      first | exact hp | exact hk.trans h.knobs
    | onAck peerAddr size probeId searchGen now =>
      obtain ⟨hp, hk, _⟩ := onAck_spec d peerAddr size probeId searchGen now
      first | exact hp.trans h.free | exact hk.trans h.knobs
    | onSendHardFail _ _ _ | setPinned _ _ | applyTuning _ _ | setRaisePeriod _ | requestRevalidate _ _
    | requestEarlyWake _ _ | removePeer _ => exact hok.elim

end

end

/-- On an ideal path of MTU `M` the search for a newly tracked peer brackets `M` in every state, and
whenever an upward search comes to rest it has found `M` up to the resolution. -/
theorem search_finds_path_mtu {ep : SocketAddr} {M : Nat} (hM : 1220 ≤ M) (hM' : M ≤ 1500) (d : PathMtuDiscovery)
    (hpin : d.pinned = none) (hnew : d.peers.lookup ep = none) (ops : List Op)
    (hok : Each step d ops (Ideal ep M)) (i : Nat) :
    (∀ p, (stateAt step d ops i).peers.lookup ep = some p → p.lastGood ≤ M ∧ M < p.firstBad) ∧ ∀ p q,
    (stateAt step d ops i).peers.lookup ep = some p → (stateAt step d ops (i + 1)).peers.lookup ep =
    some q → p.phase = .raise ∨ p.phase = .binary → q.phase = .plateau → M - q.lastGood < d.knobs.resolveEpsilon ∨
    q.lastGood = M ∧ M = 1500 := by
  have h0 : Searching d.knobs ep M d := ⟨hpin, rfl, fun p hp => by rw [hnew] at hp; cases hp⟩
  have h := Machine.invariant h0 (fun _ op hok h => Searching.step hM hM' h op hok) hok i
  refine ⟨fun p hp => ⟨(h.bracket p hp).good, (h.bracket p hp).bad⟩, ?_⟩
  intro p q hp hq hph hrest
  have hsettled : Settled d.knobs M p := by
    intro hpl
    rw [hpl] at hph
    rcases hph with hph | hph
    · cases hph
    cases hph
  cases hop : ops[i]? with
  | none =>
    rw [Machine.stateAt_succ_of_none step d ops hop, hp] at hq
    cases hq
    exact hsettled hrest
  | some op =>
    rw [Machine.stateAt_succ step d ops hop] at hq
    exact (h.follows hM hM' (hok i op hop) hq).2 p hp hsettled hrest

/-! A search with a coarse tuning on a path of 1230 bytes: 1236 is lost, 1228 passes. -/

def coarse : PathMtuDiscovery :=
  { PathMtuDiscovery.new with
    knobs :=
      ⟨⟨{ PmtudTuning.default with resolveEpsilon := 8, raiseStep := 16, confirmCount := 1 }, by decide⟩, secs 60⟩ }

def coarseRun : List Op :=
  [.onTick 0 [input remoteA] .asStored, .onTick (secs 60) [input remoteA] .asStored,
    .onTick (secs 61) [input remoteA] .asStored, .onAck remoteA 1228 2 2 (secs 61 + 1)]

def lostProbe : PeerState :=
  { PeerState.new coarse.knobs 0 with
    phase := .raise
    searchGen := 2
    inflight := some ⟨1, 1236, secs 60 + millis 500, 1⟩
    probesUsed := 1 }

def bisecting : PeerState :=
  { lostProbe with
    phase := .binary
    firstBad := 1236
    inflight := some ⟨2, 1228, secs 61 + millis 500, 1⟩
    probesUsed := 2 }

def found : PeerState :=
  { bisecting with
    phase := .plateau
    inflight := none
    lastGood := 1228
    stable := 1228
    everAcked := true
    probesUsed := 0
    nextRaiseAt := secs 121 + 1 }

theorem coarse_search_finds_path_mtu : (stateAt step coarse coarseRun 4).peers.lookup remoteA = some found ∧
    (1230 - found.lastGood < coarse.knobs.resolveEpsilon ∨ found.lastGood = 1230 ∧ 1230 = 1500) := by
  have h0 : (stateAt step coarse coarseRun 0).peers.lookup remoteA = none := by decide +kernel
  have h1 : (stateAt step coarse coarseRun 1).peers.lookup remoteA = some (PeerState.new coarse.knobs 0) := by
    decide +kernel
  have h2 : (stateAt step coarse coarseRun 2).peers.lookup remoteA = some lostProbe := by decide +kernel
  have h3 : (stateAt step coarse coarseRun 3).peers.lookup remoteA = some bisecting := by decide +kernel
  have h4 : (stateAt step coarse coarseRun 4).peers.lookup remoteA = some found := by decide +kernel
  have hok : Each step coarse coarseRun (Ideal remoteA 1230) := by
    intro i op hop
    match i, hop with
    | 0, hop => cases hop; intro p hp; rw [h0] at hp; cases hp
    | 1, hop => cases hop; intro p hp; rw [h1] at hp; cases hp; exact .of_none rfl
    | 2, hop =>
      cases hop
      intro p hp inf hi hle
      rw [h2] at hp
      cases hp
      cases hi
      exact absurd hle (by decide)
    | 3, hop => cases hop; intro _; decide
  refine ⟨h4, ?_⟩
  exact (search_finds_path_mtu (by decide) (by decide) coarse rfl rfl coarseRun hok 3).2 bisecting found h3 h4
    (.inr rfl) rfl

end ConnectUnit.Pmtud
