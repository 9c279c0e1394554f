import ConnectUnit.PmtudSound

/-!
# What a search probes next

`Aimed` ties the phase of a peer to the probe it has or wants: an upward search without a probe has a target, a
bisection has a window that is still open, and a peer that validates probes its `stable` size.
-/

open Machine (emitAt foldl_rel stateAt)

namespace ConnectUnit.Pmtud

open Spending

variable {ep : SocketAddr} {p q : PeerState} {k : Knobs} {now : Instant}
variable {ph : Phase} {used size : Nat} {inf : Inflight} {r : PeerState × Option Nat} {inputs : List PeerTickInput}
variable {n : Nat} {order : IterOrder} {eps : List SocketAddr}

theorem Phase.isValidating_iff (ph : Phase) : ph.IsValidating ↔ ph = .revalidate ∨ ph = .recheck := by
  cases ph with
  | revalidate | recheck => simp [IsValidating]
  | plateau | raise | binary | downSearch | frozen => simp [IsValidating]

/-! ## Properties that every run keeps -/

structure KeptOffTick (I : SocketAddr → Knobs → PeerState → Prop) : Prop where
  rest : ∀ {ep k p}, p.phase.isSearching = false → Quiet p → I ep k p
  period : ∀ {ep} {k : Knobs} {p} (r : Nat), I ep k p → I ep { k with raisePeriod := r } p
  ack : ∀ {k now peerAddr size ep p q}, Window ep p → I ep k p → AckStep k now peerAddr size ep p q → I ep k q
  hardFail : ∀ {k now ep p inf}, Window ep p → I ep k p → p.inflight = some inf →
    I ep k (p.sendHardFailed k now ep inf.size)

structure Kept (I : SocketAddr → Knobs → PeerState → Prop) : Prop extends KeptOffTick I where
  tick : ∀ {k now ep p n q}, Window ep p → I ep k p → TickStep k now ep p n q → I ep k q

def Everywhere (I : SocketAddr → Knobs → PeerState → Prop) (d : PathMtuDiscovery) : Prop :=
  ∀ ep p, d.peers.lookup ep = some p → I ep d.knobs p

theorem retuned_rest : (p.retuned k now).phase.isSearching = false ∧ Quiet (p.retuned k now) := by
  unfold PeerState.retuned
  dsimp only
  split
  · exact ⟨rfl, rfl, rfl⟩
  rename_i h
  exact ⟨Bool.eq_false_iff.mpr h, rfl, rfl⟩

namespace KeptOffTick

variable {I : SocketAddr → Knobs → PeerState → Prop} {d : PathMtuDiscovery} (hI : KeptOffTick I)

include hI

theorem of_pinned {m : Nat} (hw : Windows d) (hpin : d.pinned = some m) :
    ∀ ep p, d.peers.lookup ep = some p → I ep k p := by
  intro ep p hl
  unfold Windows at hw
  rw [hpin] at hw
  have hp := hw.2.2 ep p hl
  exact hI.rest (by rw [hp.frozen]; rfl) hp.quiet

theorem offTick {k' : Knobs} (hw : Window ep p) (h : I ep k p) (ho : OffTick k k' ep p q) : I ep k' q := by
  cases ho with
  | ack hk hs => rw [hk]; exact hI.ack hw h hs
  | hardFail hk hi => rw [hk]; exact hI.hardFail hw h hi
  | woken _ hrest hq =>
    have hquiet := hw.quiet_of_rest hrest
    have hns : p.phase.isSearching = false := by
      rcases hrest with hrest | hrest
      · rw [hrest]; rfl
      rw [hrest]; rfl
    rcases hq with rfl | rfl
    · exact hI.rest hns hquiet
    exact hI.rest hns hquiet
  | retuned => exact hI.rest (retuned_rest).1 (retuned_rest).2
  | period r hk => rw [hk]; exact hI.period r h

theorem setPinned (pathMtu : Option Nat) : Everywhere I (d.setPinned pathMtu now) := by
  intro ep q hl
  cases pathMtu with
  | some m =>
    unfold PathMtuDiscovery.setPinned at hl
    rw [HashMap.lookup_mapVals] at hl
    obtain ⟨p, _, rfl⟩ := Option.map_eq_some_iff.mp hl
    exact hI.rest rfl ⟨rfl, rfl⟩
  | none =>
    unfold PathMtuDiscovery.setPinned at hl
    rw [HashMap.lookup_mapVals] at hl
    obtain ⟨p, _, rfl⟩ := Option.map_eq_some_iff.mp hl
    exact hI.rest rfl ⟨rfl, rfl⟩

theorem off {d' : PathMtuDiscovery} (hw : Windows d) (h : Everywhere I d) (ho : Off d d') : Everywhere I d' := by
  cases hpin : d.pinned with
  | some m => exact hI.of_pinned (hw.off ho) (ho.pinned.trans hpin)
  | none =>
    rw [windows_of_none hpin] at hw
    intro ep q hl
    obtain ⟨p, hp, hs⟩ := ho.peer ep q hl
    rw [hpin] at hs
    exact hI.offTick (hw ep p hp) (h ep p hp) hs

theorem step (hw : Windows d) (h : Everywhere I d) {op : Op} (hop : ∀ now inputs order, op ≠ .onTick now inputs order)
    : Everywhere I (step d op).1 := by
  cases op with
  | setPinned pathMtu now => exact hI.setPinned pathMtu
  | _ => exact hI.off hw h (off_step d hop fun _ _ => Op.noConfusion)

end KeptOffTick

namespace Kept

variable {I : SocketAddr → Knobs → PeerState → Prop} {d : PathMtuDiscovery} (hI : Kept I)

include hI

theorem steps (hw : Window ep p) (h : I ep k p) (hs : Spends (TickStep k now ep) p n q) : I ep k q := by
  induction hs with
  | refl => exact h
  | tail hs hstep ih => exact hI.tick (hw.steps hs) ih hstep

theorem onTick (hw : Windows d) (h : Everywhere I d) (inputs : List PeerTickInput) (order : IterOrder) :
    Everywhere I (d.onTick now inputs order).1 := by
  cases hpin : d.pinned with
  | some m => simpa only [PathMtuDiscovery.onTick, hpin, Option.isSome_some, if_true] using h
  | none =>
    obtain ⟨_, hk, hpeer⟩ := onTick_spec d hpin now inputs order
    rw [windows_of_none hpin] at hw
    intro ep p' hl
    rw [hk]
    obtain ⟨p, ha, hs⟩ := (hpeer ep).2 p' hl
    rcases ha with ha | ⟨_, _, rfl⟩
    · exact hI.steps (hw ep p ha) (h ep p ha) hs
    exact hI.steps window_new (hI.rest rfl ⟨rfl, rfl⟩) hs

theorem step (hw : Windows d) (h : Everywhere I d) (op : Op) : Everywhere I (step d op).1 := by
  cases op with
  | onTick now inputs order => exact hI.onTick hw h inputs order
  | _ => exact hI.toKeptOffTick.step hw h fun _ _ _ => Op.noConfusion

theorem always (ops : List Op) (i : Nat) :
    Windows (stateAt Pmtud.step .new ops i) ∧ Everywhere I (stateAt Pmtud.step .new ops i) := by
  refine Machine.invariant_all (P := fun d => Windows d ∧ Everywhere I d) ⟨windows_new, ?_⟩ ?_ i
  · intro ep p hl; cases hl
  intro d op h
  exact ⟨h.1.step op, hI.step h.1 h.2 op⟩

end Kept

/-! ## What one step makes of a search -/

inductive Rested (k : Knobs) (now : Instant) : PeerState → Prop
  | plateau (p : PeerState) : Rested k now (p.enterPlateau k now)
  | frozen (p : PeerState) : Rested k now (p.enterFrozen k now)
  | anomaly (p : PeerState) : Rested k now (p.anomaly k now)

theorem Rested.finished (p : PeerState) : Rested k now (p.finishDownsearchPlateau k now) := .plateau _

theorem Rested.not_searching (h : Rested k now p) : p.phase.isSearching = false := by
  cases h with
  | plateau p =>
    obtain ⟨s, n, start, heq, _⟩ := enterPlateau_spec p k now
    rw [heq]; rfl
  | frozen p => rfl
  | anomaly p => rfl

theorem Rested.later (hk : 0 < k.raisePeriod) (h : Rested k now p) : now < p.nextRaiseAt := by
  cases h with
  | plateau p =>
    obtain ⟨s, n, start, heq, _⟩ := enterPlateau_spec p k now
    rw [heq]
    exact Nat.lt_add_of_pos_right hk
  | frozen p => exact Nat.lt_add_of_pos_right hk
  | anomaly p => exact Nat.lt_add_of_pos_right (lt_min hk (by decide))

inductive FailStep (k : Knobs) (now : Instant) (ph : Phase) (used : Nat) : PeerState → Prop
  | rested {q : PeerState} : Rested k now q → FailStep k now ph used q
  | bisect {q : PeerState} : ph = .raise ∨ ph = .binary → q.phase = .binary → Quiet q → q.probesUsed = used →
      ¬ q.WindowClosed k.resolveEpsilon → FailStep k now ph used q
  | bisectDown {q : PeerState} : ph = .downSearch → q.phase = .downSearch → Quiet q → q.probesUsed = used →
      ¬ q.WindowClosed k.resolveEpsilon → FailStep k now ph used q
  | recheck {q : PeerState} : ph = .revalidate → q.phase = .recheck → Quiet q → FailStep k now ph used q
  | down {q : PeerState} : ph.IsValidating → q.phase = .downSearch → Quiet q → q.probesUsed = 0 →
      ¬ q.WindowClosed k.resolveEpsilon → FailStep k now ph used q

theorem softDown_spec (hp : ph.IsValidating) (p : PeerState) : FailStep k now ph used (p.softDown k now ep) := by
  unfold PeerState.softDown
  generalize (if isRfc1918PrivateIp ep.ip && !p.everAcked then max p.softDownLastGood defaultMtu
    else p.softDownLastGood) = newLg
  dsimp only
  split
  · exact .rested (.finished _)
  rename_i ho
  exact .down hp rfl ⟨rfl, rfl⟩ rfl ho

theorem closeOrFreeze_cases (p : PeerState) (k : Knobs) (now : Instant) :
    Rested k now (p.closeOrFreeze k now) ∨ p.closeOrFreeze k now = p ∧ ¬ p.WindowClosed k.resolveEpsilon := by
  unfold PeerState.closeOrFreeze
  split
  · split
    · exact .inl (.finished _)
    · exact .inl (.plateau _)
  rename_i ho
  rcases maybeBudgetFreeze_cases p k now with h | h
  · rw [h]; exact .inl (.frozen _)
  rw [h]; exact .inr ⟨rfl, ho⟩

theorem confirmedFail_spec (hp : p.phase.isSearching = true) (hg : p.grace = none) :
    FailStep k now p.phase p.probesUsed (p.confirmedFail k now ep size) := by
  unfold PeerState.confirmedFail
  cases hph : p.phase with
  | raise | binary =>
    dsimp only
    rcases closeOrFreeze_cases _ k now with h | ⟨h, ho⟩
    · exact .rested h
    rw [h]
    exact .bisect (by simp) rfl ⟨rfl, hg⟩ rfl ho
  | downSearch =>
    dsimp only
    rcases closeOrFreeze_cases _ k now with h | ⟨h, ho⟩
    · exact .rested h
    rw [h]
    exact .bisectDown rfl rfl ⟨rfl, hg⟩ rfl ho
  | revalidate =>
    dsimp only
    split
    · exact .rested (.anomaly _)
    exact .recheck rfl rfl ⟨rfl, rfl⟩
  | recheck =>
    have hv : Phase.recheck.IsValidating := trivial
    exact softDown_spec hv p
  | plateau | frozen => rw [hph] at hp; cases hp

theorem sendHardFailed_spec (hp : p.phase.isSearching = true) (hg : p.grace = none) :
    FailStep k now p.phase p.probesUsed (p.sendHardFailed k now ep size) := by
  unfold PeerState.sendHardFailed
  split
  · rename_i hv
    refine softDown_spec ?_ _
    rcases hv with hv | hv
    · rw [hv]; trivial
    rw [hv]; trivial
  · exact confirmedFail_spec hp hg

inductive AckedStep (k : Knobs) (now : Instant) (ph : Phase) (used : Nat) : PeerState → Prop
  | rested {q : PeerState} : Rested k now q → AckedStep k now ph used q
  | raise {q : PeerState} : ph = .raise → q.phase = .raise → Quiet q → q.probesUsed = used →
      q.raiseTarget.isSome = true → AckedStep k now ph used q
  | bisect {q : PeerState} : ph = .binary ∨ ph = .downSearch → q.phase = ph → Quiet q → q.probesUsed = used →
      ¬ q.WindowClosed k.resolveEpsilon → AckedStep k now ph used q

theorem acked_spec (hp : p.phase.isSearching = true) : AckedStep k now p.phase p.probesUsed (p.acked k now size) := by
  unfold PeerState.acked
  cases hph : p.phase with
  | raise =>
    obtain ⟨n, hn⟩ := raiseStable_spec
    simp only [hn]
    split
    · exact .rested (.plateau _)
    rename_i ht
    exact .raise rfl rfl ⟨rfl, rfl⟩ rfl (Option.isSome_iff_ne_none.mpr (by simpa using ht))
  | binary =>
    obtain ⟨n, hn⟩ := raiseStable_spec
    simp only [hn]
    split
    · exact .rested (.plateau _)
    rename_i ho
    exact .bisect (.inl rfl) rfl ⟨rfl, rfl⟩ rfl ho
  | downSearch =>
    dsimp only
    split
    · exact .rested (.plateau _)
    rename_i ho
    exact .bisect (.inr rfl) rfl ⟨rfl, rfl⟩ rfl ho
  | revalidate | recheck => exact .rested (.plateau _)
  | plateau | frozen => rw [hph] at hp; cases hp

inductive TimeoutStep (k : Knobs) (now : Instant) (p : PeerState) (inf : Inflight) : PeerState × Bool → Prop
  | again (id : UInt32) (dl : Instant) : 1 < inf.confirmsLeft → p.phase = .recheck →
      TimeoutStep k now p inf ({ p with inflight := some ⟨id, inf.size, dl, inf.confirmsLeft - 1⟩ }, true)
  | charged (id : UInt32) (dl : Instant) : 1 < inf.confirmsLeft → p.phase ≠ .recheck →
      p.probesUsed + 1 < k.maxProbesPerSearch →
      TimeoutStep k now p inf ({ p with
        inflight := some ⟨id, inf.size, dl, inf.confirmsLeft - 1⟩, probesUsed := p.probesUsed + 1 }, true)
  | awaited (dl : Instant) : p.phase.IsValidating →
      TimeoutStep k now p inf ({ p with
        inflight := none, grace := some ⟨inf.probeId, inf.size, p.searchGen, dl⟩ }, false)
  | failed {q : PeerState} : FailStep k now p.phase p.probesUsed q → TimeoutStep k now p inf (q, false)

theorem timedOut_spec (hp : p.phase.isSearching = true) (hg : p.grace = none) {id : UInt32} :
    TimeoutStep k now p inf (p.timedOut k now ep id inf) := by
  unfold PeerState.timedOut
  dsimp only
  split
  · rename_i hleft
    by_cases hr : p.phase = .recheck
    · rw [if_pos hr, if_neg (fun hc => hc.1 hr)]
      exact .again id _ hleft hr
    rw [if_neg hr]
    split
    · exact .failed (.rested (.frozen _))
    rename_i hbudget
    refine .charged id _ hleft hr ?_
    by_contra hle
    exact hbudget ⟨hr, not_lt.mp hle⟩
  split
  · rename_i hv
    refine .awaited _ ?_
    rcases hv with hv | hv
    · rw [show p.phase = _ from hv]; trivial
    rw [show p.phase = _ from hv]; trivial
  · exact .failed (confirmedFail_spec (p := { p with inflight := none }) hp hg)

theorem startPhase_cases : p.startPhase k now = p ∨ p.phase.isSearching = false ∧ p.nextRaiseAt ≤ now ∧ Quiet p ∧
      Quiet (p.startPhase k now) ∧ (p.startPhase k now).probesUsed = 0 ∧
      ((p.startPhase k now).phase = .revalidate ∨
        (p.startPhase k now).phase = .raise ∧ (p.startPhase k now).raiseTarget.isSome = true) := by
  have hstart : ∀ q : PeerState, (q.startSearch k).probesUsed = 0 ∧ ((q.startSearch k).phase = .revalidate ∨
      (q.startSearch k).phase = .raise ∧ (q.startSearch k).raiseTarget.isSome = true) := by
    intro q
    unfold PeerState.startSearch
    refine ⟨rfl, ?_⟩
    dsimp only
    split
    · rename_i ht; exact .inr ⟨rfl, ht⟩
    exact .inl rfl
  unfold PeerState.startPhase
  split
  · exact .inl rfl
  rename_i hidle
  simp only [not_or, Bool.not_eq_true, Option.isSome_eq_false_iff, Option.isNone_iff_eq_none] at hidle
  cases hph : p.phase with
  | plateau =>
    dsimp only
    split
    · rename_i hdue; exact .inr ⟨rfl, hdue, hidle, hidle, hstart p⟩
    exact .inl rfl
  | frozen =>
    dsimp only
    split
    · rename_i hdue; exact .inr ⟨rfl, hdue, hidle, hidle, hstart _⟩
    exact .inl rfl
  | raise | binary | revalidate | recheck | downSearch => exact .inl rfl

/-! ## The target of a search -/

structure Aimed (k : Knobs) (p : PeerState) : Prop where
  raise : p.phase = .raise → p.inflight = none → p.raiseTarget.isSome = true
  bisect : p.phase = .binary ∨ p.phase = .downSearch → ¬ p.WindowClosed k.resolveEpsilon
  inflight : p.phase.IsValidating → ∀ inf ∈ p.inflight, inf.size = clampSize p.stable
  grace : p.phase.IsValidating → ∀ g ∈ p.grace, g.size = clampSize p.stable

namespace Aimed

theorem of_rest (hp : p.phase.isSearching = false) : Aimed k p := by
  cases hph : p.phase with
  | plateau | frozen =>
    refine ⟨?_, ?_, ?_, ?_⟩
    · intro h; rw [hph] at h; cases h
    · intro h; rw [hph] at h; rcases h with h | h <;> cases h
    · intro h; rw [hph] at h; exact h.elim
    · intro h; rw [hph] at h; exact h.elim
  | raise | binary | revalidate | recheck | downSearch => rw [hph] at hp; cases hp

theorem of_raise (hp : p.phase = .raise) (ht : p.inflight = none → p.raiseTarget.isSome = true) : Aimed k p := by
  refine ⟨fun _ => ht, ?_, ?_, ?_⟩
  · intro h; rw [hp] at h; rcases h with h | h <;> cases h
  · intro h; rw [hp] at h; exact h.elim
  intro h; rw [hp] at h; exact h.elim

theorem of_bisect (hp : p.phase = .binary ∨ p.phase = .downSearch) (ho : ¬ p.WindowClosed k.resolveEpsilon) :
    Aimed k p := by
  refine ⟨?_, fun _ => ho, ?_, ?_⟩
  · intro h; rw [h] at hp; rcases hp with hp | hp <;> cases hp
  · intro h; rcases hp with hp | hp <;> rw [hp] at h <;> exact h.elim
  intro h; rcases hp with hp | hp <;> rw [hp] at h <;> exact h.elim

theorem of_validating (hp : p.phase.IsValidating) (hi : ∀ inf ∈ p.inflight, inf.size = clampSize p.stable)
    (hg : ∀ g ∈ p.grace, g.size = clampSize p.stable) : Aimed k p := by
  refine ⟨?_, ?_, fun _ => hi, fun _ => hg⟩
  · intro h; rw [h] at hp; exact hp.elim
  intro h; rcases h with h | h <;> rw [h] at hp <;> exact hp.elim

theorem of_failStep (h : FailStep k now ph used q) : Aimed k q := by
  cases h with
  | rested hr => exact of_rest hr.not_searching
  | bisect _ hp _ _ ho => exact of_bisect (.inl hp) ho
  | bisectDown _ hp _ _ ho => exact of_bisect (.inr hp) ho
  | recheck _ hp hq =>
    refine of_validating (by rw [hp]; trivial) ?_ ?_
    · intro inf hi; rw [hq.1] at hi; cases hi
    intro g hg; rw [hq.2] at hg; cases hg
  | down _ hp _ _ ho => exact of_bisect (.inr hp) ho

theorem of_ackedStep (h : AckedStep k now ph used q) : Aimed k q := by
  cases h with
  | rested hr => exact of_rest hr.not_searching
  | raise _ hp _ _ ht => exact of_raise hp fun _ => ht
  | bisect hph hp _ _ ho => exact of_bisect (by rw [hp]; exact hph) ho

theorem timedOut (h : Aimed k p) (hi : p.inflight = some inf) {r : PeerState × Bool}
    (hr : TimeoutStep k now p inf r) : Aimed k r.1 := by
  have hmem : inf ∈ p.inflight := by rw [hi]; rfl
  have hsize : p.phase.IsValidating → inf.size = clampSize p.stable := fun hv => h.inflight hv inf hmem
  cases hr with
  | again id dl _ _ | charged id dl _ _ _ =>
    refine ⟨?_, h.bisect, ?_, h.grace⟩
    · intro _ hn; cases hn
    intro hv inf' hi'; cases hi'; exact hsize hv
  | awaited dl hv =>
    refine of_validating hv ?_ ?_
    · intro inf' hi'; cases hi'
    intro g hg; cases hg; exact hsize hv
  | failed hf => exact of_failStep hf

theorem startPhase (h : Aimed k p) : Aimed k (p.startPhase k now) := by
  rcases startPhase_cases with heq | ⟨_, _, _, hq, _, hph | ⟨hph, ht⟩⟩
  · rw [heq]; exact h
  · refine of_validating (by rw [hph]; trivial) ?_ ?_
    · intro inf hi; rw [hq.1] at hi; cases hi
    · intro g hg; rw [hq.2] at hg; cases hg
  · exact of_raise hph fun _ => ht

theorem nextProbe (h : Aimed k p) (hr : NextProbe k now p r) : Aimed k r.1 := by
  cases hr with
  | idle | raise _ _ _ | bisect _ _ _ | validate _ _ => exact h
  | frozen => exact of_rest rfl
  | closed _ _ => exact of_rest (Rested.plateau p).not_searching
  | finished _ _ => exact of_rest (Rested.finished p).not_searching

theorem probed (h : Aimed k p) (hr : NextProbe k now p r)
    (hs : r.2 = some size) {id : UInt32} {dl : Instant} : Aimed k (r.1.beginProbe id size dl n) := by
  cases hr with
  | idle | frozen | closed _ _ | finished _ _ => cases hs
  | raise _ hp _ => exact of_raise hp fun hn => by cases hn
  | bisect _ hp _ => exact of_bisect hp (h.bisect hp)
  | validate _ hv =>
    cases hs
    refine of_validating hv ?_ ?_
    · intro inf hi
      cases hi
      exact clampSize_eq le_clampSize clampSize_le
    · intro g hg; cases hg

theorem tick (hw : Window ep p) (h : Aimed k p) (hs : TickStep k now ep p n q) : Aimed k q := by
  cases hs with
  | healed _ => exact of_rest rfl
  | measured rtt alive => exact ⟨h.raise, h.bisect, h.inflight, h.grace⟩
  | graceExpired hg _ =>
    have hv := (hw.grace _ (by rw [hg]; rfl)).1
    exact of_failStep (confirmedFail_spec (p := { p with grace := none }) hv.isSearching rfl)
  | timedOut id hi _ _ =>
    obtain ⟨hg, hp⟩ := hw.searching _ (by rw [hi]; rfl)
    exact h.timedOut hi (timedOut_spec hp hg)
  | started => exact h.startPhase
  | asked heq => exact h.nextProbe (nextProbe_of_eq heq)
  | probed id dl heq _ => exact h.probed (nextProbe_of_eq heq) rfl

theorem kept : Kept fun _ => Aimed where
  rest hp _ := of_rest hp
  period _ h := ⟨h.raise, h.bisect, h.inflight, h.grace⟩
  tick := tick
  ack hw h hs := by
    cases hs with
    | untouched => exact h
    | late _ => exact of_rest (Rested.plateau _).not_searching
    | acked hi _ _ => exact of_ackedStep (acked_spec (hw.searching _ (by rw [hi]; rfl)).2)
  hardFail hw _ hi := by
    obtain ⟨hg, hp⟩ := hw.searching _ (by rw [hi]; rfl)
    exact of_failStep (sendHardFailed_spec hp hg)

end Aimed

/-! ## The peers that want a probe -/

theorem Aimed.wantsProbe (h : Aimed k p) (hp : p.phase.isSearching = true) (hq : Quiet p) : p.wantsProbe = true := by
  have hopen : p.phase = .binary ∨ p.phase = .downSearch → p.binaryTarget.isSome = true := by
    intro hb
    have ho := h.bisect hb
    have := k.resolveEpsilon_pos
    unfold PeerState.WindowClosed at ho
    unfold PeerState.binaryTarget
    dsimp only
    rw [if_neg (by omega), if_pos (by omega)]
    rfl
  unfold PeerState.wantsProbe
  rw [hq.1, hq.2]
  cases hph : p.phase with
  | raise => exact h.raise hph hq.1
  | binary => exact hopen (.inl hph)
  | downSearch => exact hopen (.inr hph)
  | revalidate | recheck => rfl
  | plateau | frozen => rw [hph] at hp; cases hp

namespace PathMtuDiscovery

/-- A tick up to its last stage: the state in which probes are chosen, and those sent again before. -/
def prepared (d : PathMtuDiscovery) (now : Instant) (inputs : List PeerTickInput) (order : IterOrder) :
    PathMtuDiscovery × List ProbeIntent :=
  let d := (d.healUnackedPrivateFloor now).dropStale inputs
  let d := inputs.foldl (fun d input => d.intake now input) d
  let d := (order.arrange (d.graceExpired now)).foldl (fun d ep => d.expireGrace now ep) d
  let r := eachPeer (fun d ep => d.onTimeout ep now) d (order.arrange (d.inflightExpired now))
  ((inputs.map (·.addr)).foldl (fun d ep => d.startPhase now ep) r.1, r.2)

def want (d : PathMtuDiscovery) (eps : List SocketAddr) : List SocketAddr :=
  eps.filter fun ep => (d.peers.lookup ep).any (·.wantsProbe)

variable (d : PathMtuDiscovery)

theorem onTick_eq (hpin : d.pinned = none) : d.onTick now inputs order =
      (((d.prepared now inputs order).1.issueProbes now (inputs.map (·.addr))
        (d.prepared now inputs order).2.length).1,
        (d.prepared now inputs order).2 ++ ((d.prepared now inputs order).1.issueProbes now (inputs.map (·.addr))
            (d.prepared now inputs order).2.length).2) := by
  unfold onTick
  rw [hpin]
  rfl

theorem issueProbes_eq {already : Nat} : d.issueProbes now eps already = if d.want eps = [] then (d, []) else
      let cap := min (d.knobs.maxConcurrentPeers - already) (d.want eps).length
      let cursor := if (d.want eps).length ≤ d.rrCursor then 0 else d.rrCursor
      let r := issueUpTo now d cap ((d.want eps).rotate cursor)
      ({ r.1 with rrCursor := cursor + max r.2.length 1 }, r.2) := rfl

end PathMtuDiscovery

def Unmoved (ep : SocketAddr) (p : PeerState) (d : PathMtuDiscovery) : Prop :=
  ∃ rtt alive, d.peers.lookup ep = some { p with rttMs := rtt, largeAlive := alive }

section
variable {d d' : PathMtuDiscovery}

theorem Unmoved.of_lookup (h : Unmoved ep p d) (hl : d'.peers.lookup ep = d.peers.lookup ep) : Unmoved ep p d' := by
  unfold Unmoved
  rw [hl]
  exact h

theorem foldl_lookup_of_not_mem {f : PathMtuDiscovery → SocketAddr → PathMtuDiscovery}
    (hf : ∀ d ep', ep ≠ ep' → (f d ep').peers.lookup ep = d.peers.lookup ep) (hep : ep ∉ eps)
    : (eps.foldl f d).peers.lookup ep = d.peers.lookup ep := by
  induction eps generalizing d with
  | nil => rfl
  | cons ep' eps ih =>
    rw [List.mem_cons, not_or] at hep
    rw [List.foldl_cons, ih hep.2, hf d ep' hep.1]

theorem Unmoved.intakes (h : Unmoved ep p d) : Unmoved ep p (inputs.foldl (fun d input => d.intake now input) d) := by
  refine foldl_rel (R := fun d d' => Unmoved ep p d → Unmoved ep p d') (fun _ => id)
    (fun _ _ _ h h' => h' ∘ h) ?_ inputs d h
  intro d input h
  obtain ⟨rtt, alive, hl⟩ := h
  unfold Unmoved PathMtuDiscovery.intake PathMtuDiscovery.setPeer
  by_cases he : ep = input.addr
  · subst he
    refine ⟨input.rttMs, input.health.warm && input.health.largeAlive, ?_⟩
    rw [HashMap.lookup_insert_eq, if_pos rfl]
    simp only [PathMtuDiscovery.ensurePeer, hl]
  · exact ⟨rtt, alive, by rw [HashMap.lookup_insert_eq, if_neg he]; exact hl⟩

theorem Unmoved.expireGraces (hg : p.grace = none) (h : Unmoved ep p d) :
    Unmoved ep p ((order.arrange (d.graceExpired now)).foldl (fun d ep => d.expireGrace now ep) d) := by
  obtain ⟨_, hmem⟩ := selected_spec (P := fun p => p.grace.any fun g => g.deadline ≤ now) d order
  obtain ⟨rtt, alive, hl⟩ := h
  refine Unmoved.of_lookup ⟨rtt, alive, hl⟩ (foldl_lookup_of_not_mem (fun d ep' hne => ?_) (fun hep => ?_))
  · exact expireGrace_lookup_ne d hne
  obtain ⟨p', hp', hdue⟩ := hmem ep hep
  rw [hl] at hp'
  cases hp'
  simp [hg] at hdue

theorem Unmoved.onTimeouts (hi : p.inflight = none) (h : Unmoved ep p d) : Unmoved ep p
    (PathMtuDiscovery.eachPeer (fun d ep => d.onTimeout ep now) d (order.arrange (d.inflightExpired now))).1 := by
  obtain ⟨_, hmem⟩ :=
    selected_spec (P := fun p => p.inflight.any fun inf => inf.deadline ≤ now ∧ inf.probeId ≠ 0) d order
  obtain ⟨rtt, alive, hl⟩ := h
  rw [eachPeer_fst]
  refine Unmoved.of_lookup ⟨rtt, alive, hl⟩ (foldl_lookup_of_not_mem (fun d ep' hne => ?_) (fun hep => ?_))
  · exact onTimeout_lookup_ne d hne
  obtain ⟨p', hp', hdue⟩ := hmem ep hep
  rw [hl] at hp'
  cases hp'
  simp [hi] at hdue

theorem startPhase_of_searching (hp : p.phase.isSearching = true) : p.startPhase k now = p := by
  rcases startPhase_cases with h | ⟨h, _⟩
  · exact h
  rw [hp] at h; cases h

theorem Unmoved.startPhases (hp : p.phase.isSearching = true) (h : Unmoved ep p d) :
    Unmoved ep p (eps.foldl (fun d ep => d.startPhase now ep) d) := by
  refine foldl_rel (R := fun d d' => Unmoved ep p d → Unmoved ep p d') (fun _ => id)
    (fun _ _ _ h h' => h' ∘ h) ?_ eps d h
  intro d ep' h
  obtain ⟨rtt, alive, hl⟩ := h
  unfold PathMtuDiscovery.startPhase
  split
  · exact ⟨rtt, alive, hl⟩
  rename_i p' hp'
  unfold Unmoved PathMtuDiscovery.setPeer
  by_cases he : ep = ep'
  · subst he
    rw [hl] at hp'
    cases hp'
    refine ⟨rtt, alive, ?_⟩
    rw [HashMap.lookup_insert_eq, if_pos rfl]
    exact congrArg some (startPhase_of_searching hp)
  · exact ⟨rtt, alive, by rw [HashMap.lookup_insert_eq, if_neg he]; exact hl⟩

theorem Unmoved.prepared (hw : Window ep p) (hp : p.phase.isSearching = true) (hq : Quiet p)
    (hl : d.peers.lookup ep = some p) (hin : ep ∈ inputs.map (·.addr))
    (order : IterOrder) : Unmoved ep p (d.prepared now inputs order).1 := by
  have hheal : ¬ p.NeedsHeal ep := by
    intro hn
    have := hw.floor hn.1 hn.2.1
    have := hn.2.2
    unfold defaultMtu at this
    omega
  have hd : Unmoved ep p ((d.healUnackedPrivateFloor now).dropStale inputs) := by
    refine ⟨p.rttMs, p.largeAlive, ?_⟩
    rw [dropStale_lookup, if_pos hin, heal_lookup, hl]
    exact congrArg some (if_neg hheal)
  have htaken : Unmoved ep p (inputs.foldl (fun d input => d.intake now input)
      ((d.healUnackedPrivateFloor now).dropStale inputs)) := hd.intakes
  exact ((htaken.expireGraces hq.2).onTimeouts hq.1).startPhases hp

theorem mem_want (hw : Window ep p) (ha : Aimed d.knobs p) (hp : p.phase.isSearching = true) (hq : Quiet p)
    (hl : d.peers.lookup ep = some p) (hin : ep ∈ inputs.map (·.addr))
    (order : IterOrder) : ep ∈ (d.prepared now inputs order).1.want (inputs.map (·.addr)) := by
  obtain ⟨rtt, alive, hl'⟩ : Unmoved ep p (d.prepared now inputs order).1 := .prepared hw hp hq hl hin order
  refine List.mem_filter.mpr ⟨hin, ?_⟩
  rw [hl']
  exact ha.wantsProbe hp hq

end

/-! ## What an acknowledgement proves -/

def Proves (size : Nat) (p : PeerState) : Prop := size ≤ p.lastGood ∧ size < p.firstBad

theorem proves_enterPlateau : Proves size (p.enterPlateau k now) ↔ Proves size p := by
  obtain ⟨s, n, start, heq, _⟩ := enterPlateau_spec p k now
  rw [heq]
  exact Iff.rfl

theorem acked_bracketing (hw : Window ep p) (hi : p.inflight = some inf)
    (hp : p.phase.IsBracketing) : Proves inf.size (p.acked k now inf.size) := by
  obtain ⟨hlo, hhi⟩ := hw.bracketing inf (by rw [hi]; rfl) hp
  have hbad := hw.bad_le
  unfold PeerState.acked
  cases hph : p.phase with
  | raise =>
    obtain ⟨n, hn⟩ := raiseStable_spec
    simp only [hn]
    split
    · rw [proves_enterPlateau]
      split
      · exact ⟨le_refl _, lt_of_lt_of_le hhi hbad⟩
      exact ⟨le_refl _, hhi⟩
    · exact ⟨le_refl _, hhi⟩
  | binary =>
    obtain ⟨n, hn⟩ := raiseStable_spec
    simp only [hn]
    split
    · rw [proves_enterPlateau]
      exact ⟨le_max_left _ _, hhi⟩
    exact ⟨le_max_left _ _, hhi⟩
  | downSearch =>
    dsimp only
    split
    · unfold PeerState.finishDownsearchPlateau
      rw [proves_enterPlateau]
      exact ⟨le_max_left _ _, hhi⟩
    · exact ⟨le_max_left _ _, hhi⟩
  | plateau | revalidate | recheck | frozen => rw [hph] at hp; exact hp.elim

theorem proves_stable (hw : Window ep p) : Proves (clampSize p.stable) p ↔ p.stable ≤ p.lastGood := by
  have h1 := hw.min_le
  have h2 := hw.le_stable
  have h3 := hw.lt_bad
  rw [clampSize_eq (by omega) hw.stable_le]
  unfold Proves
  omega

theorem acked_proves_iff (hw : Window ep p) (ha : Aimed k p) (hi : p.inflight = some inf) :
    Proves inf.size (p.acked k now inf.size) ↔ (p.phase.IsValidating → p.stable ≤ p.lastGood) := by
  have hmem : inf ∈ p.inflight := by rw [hi]; rfl
  have hval : p.phase.IsValidating →
      (Proves inf.size (p.acked k now inf.size) ↔ (p.phase.IsValidating → p.stable ≤ p.lastGood)) := by
    intro hv
    have hacked : Proves inf.size (p.acked k now inf.size) ↔ Proves inf.size p := by
      unfold PeerState.acked
      cases hph : p.phase with
      | revalidate | recheck => exact proves_enterPlateau
      | plateau | raise | binary | downSearch | frozen => rw [hph] at hv; exact hv.elim
    rw [hacked, ha.inflight hv inf hmem, proves_stable hw]
    exact ⟨fun h _ => h, fun h => h hv⟩
  have hbr : p.phase.IsBracketing →
      (Proves inf.size (p.acked k now inf.size) ↔ (p.phase.IsValidating → p.stable ≤ p.lastGood)) :=
    fun hb => ⟨fun _ hv => absurd hb hv.not_bracketing, fun _ => acked_bracketing hw hi hb⟩
  have hs := (hw.searching inf hmem).2
  cases hph : p.phase with
  | revalidate | recheck => rw [hph] at hval; exact hval trivial
  | raise | binary | downSearch => rw [hph] at hbr; exact hbr trivial
  | plateau | frozen => rw [hph] at hs; cases hs

theorem lateAcked_proves_iff (hw : Window ep p) (ha : Aimed k p) {g : GraceProbe} (hg : p.grace = some g) :
    Proves g.size (p.lateAcked k now) ↔ (p.phase.IsValidating → p.stable ≤ p.lastGood) := by
  have hmem : g ∈ p.grace := by rw [hg]; rfl
  have hv := (hw.grace g hmem).1
  have hplateau : Proves g.size (p.lateAcked k now) ↔ Proves g.size p := proves_enterPlateau
  rw [hplateau, ha.grace hv g hmem, proves_stable hw]
  exact ⟨fun h _ => h, fun h => h hv⟩

theorem onAck_accepted {d : PathMtuDiscovery} {peerAddr : SocketAddr} {probeId searchGen : UInt32}
    (hok : (d.onAck peerAddr size probeId searchGen now).2.1 = true) :
    d.pinned = none ∧ ∃ ep p q, d.resolveAck peerAddr (clampSize size) probeId searchGen now = some ep ∧
      d.peers.lookup ep = some p ∧
      (d.onAck peerAddr size probeId searchGen now).1.peers = d.peers.insert ep q ∧
      ((∃ g, p.grace = some g ∧ g.size = clampSize size ∧ q = p.lateAcked d.knobs now) ∨
        ∃ inf, p.inflight = some inf ∧ inf.size = clampSize size ∧ q = p.acked d.knobs now inf.size) := by
  cases hpin : d.pinned with
  | some m => simp [PathMtuDiscovery.onAck, hpin] at hok
  | none =>
    refine ⟨rfl, ?_⟩
    unfold PathMtuDiscovery.onAck at hok ⊢
    rw [hpin] at hok ⊢
    simp only [Option.isSome_none, Bool.false_eq_true, if_false] at hok ⊢
    split at hok
    · cases hok
    rename_i ep hres
    split at hok
    · cases hok
    rename_i p hp
    split at hok
    · rename_i hm
      rw [if_pos hm]
      obtain ⟨_, g, hg, _, _, hsize, _⟩ := hm
      exact ⟨ep, p, _, hres, hp, rfl, .inl ⟨g, hg, hsize, rfl⟩⟩
    rename_i hm
    split at hok
    · rename_i hm'
      rw [if_neg hm, if_pos hm']
      obtain ⟨inf, hi, _, _, _, hsize⟩ := hm'
      exact ⟨ep, p, _, hres, hp, rfl, .inr ⟨inf, hi, hsize, by rw [hsize]⟩⟩
    · cases hok

/-- An accepted acknowledgement leaves its size proven exactly if the peer did not just validate
a `stable` size above what is proven. -/
theorem ack_proves_size_iff (ops : List Op) (i : Nat) (peerAddr : SocketAddr) (size : Nat)
    (probeId searchGen : UInt32) (now : Instant)
    (hok : ((stateAt step .new ops i).onAck peerAddr size probeId searchGen now).2.1 = true) :
    ∃ ep p q, (stateAt step .new ops i).resolveAck peerAddr (clampSize size) probeId searchGen now = some ep ∧
      (stateAt step .new ops i).peers.lookup ep = some p ∧
      ((stateAt step .new ops i).onAck peerAddr size probeId searchGen now).1.peers.lookup ep = some q ∧
      (clampSize size ≤ q.lastGood ∧ clampSize size < q.firstBad ↔
        (p.phase = .revalidate ∨ p.phase = .recheck → p.stable ≤ p.lastGood)) := by
  obtain ⟨hw, ha⟩ := Aimed.kept.always ops i
  obtain ⟨hpin, ep, p, q, hres, hp, hafter, hcase⟩ := onAck_accepted hok
  refine ⟨ep, p, q, hres, hp, ?_, ?_⟩
  · rw [hafter, HashMap.lookup_insert_eq, if_pos rfl]
  have hwp := (windows_of_none hpin).mp hw ep p hp
  have hap := ha ep p hp
  rw [← p.phase.isValidating_iff]
  rcases hcase with ⟨g, hg, hsize, rfl⟩ | ⟨inf, hi, hsize, rfl⟩
  · rw [← hsize]
    exact lateAcked_proves_iff hwp hap hg
  rw [← hsize]
  exact acked_proves_iff hwp hap hi

theorem raise_ack_proves : ((stateAt step .new firstSearch 2).onAck remoteA 1252 1 2 (secs 60 + 1)).2.1 = true ∧
      ∃ ep p q, (stateAt step .new firstSearch 2).resolveAck remoteA 1252 1 2 (secs 60 + 1) = some ep ∧
        (stateAt step .new firstSearch 2).peers.lookup ep = some p ∧
        ((stateAt step .new firstSearch 2).onAck remoteA 1252 1 2 (secs 60 + 1)).1.peers.lookup ep = some q ∧
        (1252 ≤ q.lastGood ∧ 1252 < q.firstBad ↔
          (p.phase = .revalidate ∨ p.phase = .recheck → p.stable ≤ p.lastGood)) := by
  have hok : ((stateAt step .new firstSearch 2).onAck remoteA 1252 1 2 (secs 60 + 1)).2.1 = true := by
    decide +kernel
  exact ⟨hok, ack_proves_size_iff firstSearch 2 remoteA 1252 1 2 _ hok⟩

/-! A path that shrinks for a while: after a soft-down the search closes at 614, one campaign does not
bring `stable` down, and the next validation probes the old 1220. -/

def impatient : ClampedTuning :=
  ⟨{ PmtudTuning.default with confirmCount := 1, resolveEpsilon := 8, raiseStep := 1 }, by decide⟩

def tickAt (t : Nat) : Op := .onTick (secs t) [input remoteA] .asStored

def failAt (t : Nat) (id : UInt32) : List Op := [tickAt t, .onSendHardFail remoteA id (secs t)]

def shrunkPath : List Op :=
  [.applyTuning impatient 0, tickAt 0] ++ failAt 60 1 ++ failAt 120 2 ++ failAt 121 3 ++ failAt 122 4 ++
    failAt 123 5 ++ failAt 124 6 ++ failAt 125 7 ++ failAt 126 8 ++
    [tickAt 127, .onAck remoteA 614 9 4 (secs 127)] ++ failAt 187 10 ++ [tickAt 247]

theorem validated_size_unproven : (emitAt step .new shrunkPath 22 = [⟨remoteA, 1220, 11, 6⟩]) ∧
    ((stateAt step .new shrunkPath 23).onAck remoteA 1220 11 6 (secs 247)).2.1 = true ∧
    (((stateAt step .new shrunkPath 23).onAck remoteA 1220 11 6 (secs 247)).1.peers.lookup remoteA).map
    (fun p => (p.lastGood, p.firstBad)) = some (614, 615) := by
  decide +kernel

end ConnectUnit.Pmtud
