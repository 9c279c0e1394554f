import Mathlib.Algebra.BigOperators.Intervals
import ConnectUnit.PmtudTargets

/-!
# The probes of one campaign

A campaign lasts from the moment a peer leaves its rest until it comes back to it.
-/

open Machine (emitAt stateAt)
open Finset (Ico Ico_self)

namespace ConnectUnit.Pmtud

open Spending

variable {ep : SocketAddr} {p q : PeerState} {k : Knobs} {now : Instant}
variable {sent' size : Nat}

/-! ## What a campaign has spent -/

namespace Knobs

def campaignProbes (k : Knobs) : Nat := k.maxProbesPerSearch + 2 * k.confirmCount

theorem confirmCount_pos (k : Knobs) : 0 < k.confirmCount := by
  have h := congrArg PmtudTuning.confirmCount k.tuning.2
  simp only [PmtudTuning.clamp] at h
  unfold confirmCount
  omega

end Knobs

def Charged (k : Knobs) (ph : Phase) (used sent : Nat) : Prop :=
  match ph with
  | .raise | .binary => sent ≤ used ∧ used ≤ k.maxProbesPerSearch
  | .revalidate => sent ≤ k.confirmCount
  | .recheck => sent ≤ 2 * k.confirmCount
  | .downSearch => sent ≤ 2 * k.confirmCount + used ∧ used ≤ k.maxProbesPerSearch
  | .plateau | .frozen => True

def PeerState.toSend (p : PeerState) (k : Knobs) : Nat :=
  match p.phase with
  | .revalidate | .recheck =>
    match p.inflight with
    | some inf => inf.confirmsLeft - 1
    | none => if p.grace.isSome then 0 else k.confirmCount
  | _ => 0

def Spent (sent : Nat) (k : Knobs) (p : PeerState) : Prop := Charged k p.phase p.probesUsed (sent + p.toSend k)

variable {ph : Phase} {used sent : Nat}

theorem Charged.mono (h : Charged k ph used sent) (hle : sent' ≤ sent) : Charged k ph used sent' := by
  unfold Charged at h ⊢
  cases ph with
  | raise | binary | downSearch => exact ⟨by dsimp only at h; omega, h.2⟩
  | revalidate | recheck => exact le_trans hle h
  | plateau | frozen => trivial

theorem Charged.le (h : Charged k ph used sent) (hp : ph.isSearching = true) : sent ≤ k.campaignProbes := by
  unfold Charged at h
  unfold Knobs.campaignProbes
  cases ph with
  | raise | binary | revalidate | recheck | downSearch => dsimp only at h; omega
  | plateau | frozen => cases hp

theorem Spent.charged (h : Spent sent k p) : Charged k p.phase p.probesUsed sent := h.mono (Nat.le_add_right _ _)

theorem Spent.mono (h : Spent sent k p) (hle : sent' ≤ sent) : Spent sent' k p :=
  Charged.mono h (Nat.add_le_add_right hle _)

theorem Spent.of_rest (hp : p.phase.isSearching = false) : Spent sent k p := by
  unfold Spent Charged
  cases hph : p.phase with
  | plateau | frozen => trivial
  | raise | binary | revalidate | recheck | downSearch => rw [hph] at hp; cases hp

theorem Spent.of_bisect (hp : p.phase = .binary ∨ p.phase = .downSearch) (h : Charged k p.phase p.probesUsed sent) :
    Spent sent k p := by
  have hnone : p.toSend k = 0 := by
    unfold PeerState.toSend
    rcases hp with hp | hp
    · rw [hp]
    rw [hp]
  unfold Spent
  rwa [hnone]

theorem Spent.of_failStep (hs : FailStep k now ph used q) (h : Charged k ph used sent) : Spent sent k q := by
  cases hs with
  | rested hr => exact of_rest hr.not_searching
  | bisect hph hq _ hu _ =>
    refine of_bisect (.inl hq) ?_
    rw [hq, hu]
    rcases hph with rfl | rfl
    · exact h
    exact h
  | bisectDown hph hq _ hu _ =>
    refine of_bisect (.inr hq) ?_
    rw [hq, hu, ← hph]
    exact h
  | recheck hph hq hquiet =>
    subst hph
    have hsent : sent ≤ k.confirmCount := h
    unfold Spent PeerState.toSend
    rw [hq, hquiet.1, hquiet.2]
    show sent + k.confirmCount ≤ 2 * k.confirmCount
    omega
  | down hv hq _ hu _ =>
    refine of_bisect (.inr hq) ?_
    rw [hq, hu]
    have hsent : sent ≤ 2 * k.confirmCount := by
      rcases (Phase.isValidating_iff ph).mp hv with rfl | rfl
      · exact le_trans h (Nat.le_mul_of_pos_left _ (by decide))
      exact h
    exact ⟨hsent, Nat.zero_le _⟩

theorem Spent.of_ackedStep (hs : AckedStep k now ph used q) (h : Charged k ph used sent) : Spent sent k q := by
  cases hs with
  | rested hr => exact of_rest hr.not_searching
  | raise hph hq _ hu _ =>
    have hnone : q.toSend k = 0 := by unfold PeerState.toSend; rw [hq]
    unfold Spent
    rw [hnone, hq, hu, ← hph]
    exact h
  | bisect hph hq _ hu _ =>
    refine of_bisect (by rw [hq]; exact hph) ?_
    rw [hq, hu]
    exact h

theorem Spent.kept (ep : SocketAddr) (sent : Nat) : KeptOffTick fun ep' k p => ep' = ep → Spent sent k p where
  rest hp _ _ := of_rest hp
  period _ h he := h he
  ack hw h hs he := by
    cases hs with
    | untouched => exact h he
    | late _ => exact of_rest (Rested.plateau _).not_searching
    | acked hi _ _ => exact of_ackedStep (acked_spec (hw.searching _ (by rw [hi]; rfl)).2) (h he).charged
  hardFail hw h hi he := by
    obtain ⟨hg, hp⟩ := hw.searching _ (by rw [hi]; rfl)
    exact of_failStep (sendHardFailed_spec hp hg) (h he).charged

/-! ## A campaign within one tick -/

structure Running (k : Knobs) (now : Instant) (p : PeerState) (sent : Nat) : Prop where
  spent : Spent sent k p
  le : sent ≤ k.campaignProbes
  rest : p.phase.isSearching = false → sent = 0 ∨ now < p.nextRaiseAt

namespace Running

theorem of_search (h : Spent sent k p) (hp : p.phase.isSearching = true) : Running k now p sent :=
  ⟨h, h.charged.le hp, fun hn => by rw [hp] at hn; cases hn⟩

theorem of_rested (hk : 0 < k.raisePeriod) (hr : Rested k now p) (hle : sent ≤ k.campaignProbes) :
    Running k now p sent :=
  ⟨.of_rest hr.not_searching, hle, fun _ => .inr (hr.later hk)⟩

theorem of_failStep (hk : 0 < k.raisePeriod) (hs : FailStep k now ph used q) (hp : ph.isSearching = true)
    (h : Charged k ph used sent) : Running k now q sent := by
  have hspent := Spent.of_failStep hs h
  cases hs with
  | rested hr => exact of_rested hk hr (h.le hp)
  | bisect _ hq _ _ _ | bisectDown _ hq _ _ _ | recheck _ hq _ | down _ hq _ _ _ =>
    exact of_search hspent (by rw [hq]; rfl)

theorem timedOut (hk : 0 < k.raisePeriod) {inf : Inflight} (hi : p.inflight = some inf)
    (hp : p.phase.isSearching = true) {r : PeerState × Bool} (hr : TimeoutStep k now p inf r)
    (h : Running k now p sent) : Running k now r.1 (sent + if r.2 then 1 else 0) := by
  have hspent := h.spent
  unfold Spent PeerState.toSend at hspent
  rw [hi] at hspent
  cases hr with
  | again id dl hleft hph =>
    rw [if_pos rfl]
    refine of_search ?_ hp
    unfold Spent PeerState.toSend
    dsimp only
    rw [hph] at hspent ⊢
    unfold Charged at hspent ⊢
    dsimp only at hspent ⊢
    omega
  | charged id dl hleft hph hbudget =>
    rw [if_pos rfl]
    refine of_search ?_ hp
    unfold Spent PeerState.toSend
    dsimp only
    unfold Charged at hspent ⊢
    cases hc : p.phase with
    | raise | binary | downSearch | revalidate =>
      rw [hc] at hspent
      dsimp only at hspent ⊢
      omega
    | recheck => exact absurd hc hph
    | plateau | frozen => trivial
  | awaited dl hv =>
    refine of_search ?_ hp
    have hcharged := h.spent.charged
    unfold Spent PeerState.toSend
    rcases (Phase.isValidating_iff _).mp hv with hc | hc
    · rw [hc] at hcharged ⊢; exact hcharged
    rw [hc] at hcharged ⊢; exact hcharged
  | failed hf => exact of_failStep hk hf hp h.spent.charged

theorem startPhase (h : Running k now p sent) : Running k now (p.startPhase k now) sent := by
  rcases startPhase_cases with heq | ⟨hp, hdue, _, hq, hused, hph⟩
  · rw [heq]; exact h
  have hsent : sent = 0 := by
    rcases h.rest hp with h0 | hlt
    · exact h0
    exact absurd hlt (not_lt.mpr hdue)
  subst hsent
  have hspent : Spent 0 k (p.startPhase k now) := by
    unfold Spent PeerState.toSend
    rw [hused, hq.1, hq.2]
    rcases hph with hph | ⟨hph, _⟩
    · rw [hph]
      show 0 + k.confirmCount ≤ k.confirmCount
      omega
    rw [hph]
    exact ⟨le_refl _, Nat.zero_le _⟩
  refine of_search hspent ?_
  rcases hph with hph | ⟨hph, _⟩
  · rw [hph]; rfl
  rw [hph]; rfl

theorem asked (hk : 0 < k.raisePeriod) {r : PeerState × Option Nat} (hr : NextProbe k now p r)
    (h : Running k now p sent) : Running k now r.1 sent := by
  cases hr with
  | idle | raise _ _ _ | bisect _ _ _ | validate _ _ => exact h
  | frozen => exact of_rested hk (.frozen p) h.le
  | closed _ _ => exact of_rested hk (.plateau p) h.le
  | finished _ _ => exact of_rested hk (.finished p) h.le

end Running

theorem nextProbe_budget (h : p.nextProbe k now = (q, some size)) :
    q = p ∧ Quiet p ∧ p.phase.isSearching = true ∧ (p.phase ≠ .recheck → p.probesUsed < k.maxProbesPerSearch) := by
  have hspec := nextProbe_spec p k now
  rw [h] at hspec
  have hbudget : p.phase ≠ .recheck → p.probesUsed < k.maxProbesPerSearch := by
    intro hph
    by_contra hle
    have hfreeze : p.maybeBudgetFreeze k now = (p.enterFrozen k now, true) := by
      unfold PeerState.maybeBudgetFreeze
      rw [if_neg hph, if_pos (not_lt.mp hle)]
    unfold PeerState.nextProbe at h
    rw [hfreeze] at h
    split at h
    · cases h
    cases h
  cases hspec with
  | raise hq hp _ => exact ⟨rfl, hq, by rw [hp]; rfl, hbudget⟩
  | bisect hq hp _ =>
    refine ⟨rfl, hq, ?_, hbudget⟩
    rcases hp with hp | hp
    · rw [hp]; rfl
    rw [hp]; rfl
  | validate hq hv => exact ⟨rfl, hq, hv.isSearching, hbudget⟩

theorem Running.probed (heq : p.nextProbe k now = (q, some size)) (h : Running k now p sent)
    {id : UInt32} {dl : Instant} : Running k now (q.beginProbe id size dl k.confirmCount) (sent + 1) := by
  obtain ⟨rfl, hq, hp, hbudget⟩ := nextProbe_budget heq
  have hpos := k.confirmCount_pos
  have hspent := h.spent
  refine of_search ?_ hp
  unfold Spent PeerState.toSend at hspent ⊢
  rw [hq.1, hq.2] at hspent
  unfold Charged at hspent ⊢
  unfold PeerState.beginProbe
  dsimp only
  cases hc : q.phase with
  | raise | binary | downSearch =>
    rw [hc] at hspent hbudget
    have := hbudget (by decide)
    dsimp only at hspent ⊢
    omega
  | revalidate | recheck =>
    rw [hc] at hspent
    simp only [Option.isSome_none, Bool.false_eq_true, if_false] at hspent
    dsimp only
    omega
  | plateau | frozen => trivial

theorem Running.step (hk : 0 < k.raisePeriod) (hw : Window ep p) (h : Running k now p sent) {n : Nat}
    (hs : TickStep k now ep p n q) : Running k now q (sent + n) := by
  cases hs with
  | healed hn =>
    have hfloor := hw.floor hn.1 hn.2.1
    have hlow := hn.2.2
    unfold defaultMtu at hlow
    omega
  | measured rtt alive => exact ⟨h.spent, h.le, h.rest⟩
  | graceExpired hg _ =>
    have hv := (hw.grace _ (by rw [hg]; rfl)).1
    exact of_failStep hk (confirmedFail_spec (p := { p with grace := none }) hv.isSearching rfl) hv.isSearching
      h.spent.charged
  | timedOut id hi _ _ =>
    obtain ⟨hg, hp⟩ := hw.searching _ (by rw [hi]; rfl)
    exact h.timedOut hk hi hp (timedOut_spec hp hg)
  | started => exact h.startPhase
  | asked heq => exact h.asked hk (nextProbe_of_eq heq)
  | probed id dl heq _ => exact h.probed heq

/-! ## Campaigns along a run -/

section
variable {d : PathMtuDiscovery}

theorem requestWake_knobs {cooldown : Nat} {last : PeerState → Option Instant}
    {note : PeerState → PeerState} {peer : SocketAddr} :
    (d.requestWake cooldown last note peer now).1.knobs = d.knobs := by
  unfold PathMtuDiscovery.requestWake
  repeat' split
  all_goals rfl

theorem step_knobs (d : PathMtuDiscovery) (op : Op) : (step d op).1.knobs = match op with
    | .applyTuning t _ => { d.knobs with tuning := t }
    | .setRaisePeriod period => { d.knobs with raisePeriod := secs (max period 1) }
    | _ => d.knobs := by
  cases op with
  | onTick now inputs order =>
    cases hpin : d.pinned with
    | some m => simp only [step, PathMtuDiscovery.onTick, hpin, Option.isSome_some, if_true]
    | none => exact (onTick_spec d hpin now inputs order).2.1
  | onAck peerAddr size probeId searchGen now => exact (onAck_spec d peerAddr size probeId searchGen now).2.1
  | onSendHardFail peerAddr probeId now =>
    show (d.onSendHardFail peerAddr probeId now).knobs = d.knobs
    unfold PathMtuDiscovery.onSendHardFail
    repeat' split
    all_goals rfl
  | setPinned pathMtu now => cases pathMtu <;> rfl
  | applyTuning t now =>
    show (d.applyTuning t now).knobs = _
    unfold PathMtuDiscovery.applyTuning
    dsimp only
    split
    · rfl
    rfl
  | setRaisePeriod period => rfl
  | requestRevalidate peer now => exact requestWake_knobs
  | requestEarlyWake peer now => exact requestWake_knobs
  | removePeer peer =>
    show (d.removePeer peer).knobs = d.knobs
    unfold PathMtuDiscovery.removePeer
    split
    · rfl
    rfl

theorem step_raisePeriod (h : 0 < d.knobs.raisePeriod) {op : Op} : 0 < (step d op).1.knobs.raisePeriod := by
  rw [step_knobs]
  cases op with
  | setRaisePeriod period =>
    show 0 < secs (max period 1)
    unfold secs
    omega
  | _ => exact h

def Searches (ep : SocketAddr) (d : PathMtuDiscovery) : Prop :=
  ∃ p, d.peers.lookup ep = some p ∧ p.phase.isSearching = true

theorem step_campaignProbes (hw : Windows d) {op : Op} (hs : Searches ep (step d op).1) :
    (step d op).1.knobs.campaignProbes = d.knobs.campaignProbes := by
  rw [step_knobs]
  cases op with
  | applyTuning t now =>
    obtain ⟨q, hl, hq⟩ := hs
    replace hl : (d.applyTuning t now).peers.lookup ep = some q := hl
    unfold PathMtuDiscovery.applyTuning at hl
    unfold Windows at hw
    cases hpin : d.pinned with
    | some m =>
      simp only [hpin, Option.isSome_some, if_true] at hl hw
      rw [(hw.2.2 ep q hl).frozen] at hq
      cases hq
    | none =>
      simp only [hpin, Option.isSome_none, Bool.false_eq_true, if_false] at hl
      rw [HashMap.lookup_mapVals] at hl
      obtain ⟨p, _, rfl⟩ := Option.map_eq_some_iff.mp hl
      rw [(retuned_rest).1] at hq
      cases hq
  | _ => rfl

theorem onTick_spent (hw : Windows d) (hk : 0 < d.knobs.raisePeriod) (hpin : d.pinned = none)
    (h : ∀ p, d.peers.lookup ep = some p → Spent sent d.knobs p) (hle : sent ≤ d.knobs.campaignProbes)
    (hs : Searches ep d ∨ sent = 0) {inputs : List PeerTickInput} {order : IterOrder} : sent + sentTo ep
    (d.onTick now inputs order).2 ≤ d.knobs.campaignProbes ∧ ∀ q, (d.onTick now inputs order).1.peers.lookup ep = some
    q → Spent (sent + sentTo ep (d.onTick now inputs order).2) d.knobs q := by
  obtain ⟨hgone, hmoves⟩ := (onTick_spec d hpin now inputs order).2.2 ep
  rw [windows_of_none hpin] at hw
  have hrunning : ∀ q, (d.onTick now inputs order).1.peers.lookup ep = some q →
      Running d.knobs now q (sent + sentTo ep (d.onTick now inputs order).2) := by
    intro q hl
    obtain ⟨p, ha, hspends⟩ := hmoves q hl
    refine (hspends.invariant (I := fun p s => Window ep p ∧ Running d.knobs now p s) ?_ ?_).2
    · intro p s n q hp hstep
      exact ⟨hstep.window hp.1, hp.2.step hk hp.1 hstep⟩
    rcases ha with ha | ⟨hn, _, rfl⟩
    · refine ⟨hw ep p ha, h p ha, hle, fun hrest => .inl ?_⟩
      rcases hs with ⟨p', hl', hp'⟩ | h0
      · rw [ha] at hl'
        cases hl'
        rw [hrest] at hp'
        cases hp'
      · exact h0
    refine ⟨window_new, .of_rest rfl, hle, fun _ => .inl ?_⟩
    rcases hs with ⟨p', hl', _⟩ | h0
    · rw [hn] at hl'; cases hl'
    exact h0
  refine ⟨?_, fun q hl => (hrunning q hl).spent⟩
  cases hl : (d.onTick now inputs order).1.peers.lookup ep with
  | none => rw [hgone hl]; exact hle
  | some q => exact (hrunning q hl).le

theorem step_spent (hw : Windows d) (hk : 0 < d.knobs.raisePeriod)
    (h : ∀ p, d.peers.lookup ep = some p → Spent sent d.knobs p) (hle : sent ≤ d.knobs.campaignProbes)
    (hs : Searches ep d ∨ sent = 0) (op : Op) : sent + sentTo ep (step d op).2 ≤ d.knobs.campaignProbes ∧ ∀ q,
    (step d op).1.peers.lookup ep = some q → Spent (sent + sentTo ep (step d op).2) (step d op).1.knobs q := by
  have hother : (∀ now inputs order, op ≠ .onTick now inputs order) → (step d op).2 = [] →
      sent + sentTo ep (step d op).2 ≤ d.knobs.campaignProbes ∧ ∀ q, (step d op).1.peers.lookup ep = some q →
          Spent (sent + sentTo ep (step d op).2) (step d op).1.knobs q := by
    intro hop hnone
    rw [hnone]
    refine ⟨hle, fun q hl => ?_⟩
    have hall := (Spent.kept ep sent).step hw (fun ep' p hp he => h p (he ▸ hp)) hop
    exact hall ep q hl rfl
  cases op with
  | onTick now inputs order =>
    cases hpin : d.pinned with
    | some m =>
      have hsame : step d (.onTick now inputs order) = (d, []) := by
        simp only [step, PathMtuDiscovery.onTick, hpin, Option.isSome_some, if_true]
      rw [hsame]
      exact ⟨hle, h⟩
    | none =>
      have hknobs := step_knobs d (.onTick now inputs order)
      dsimp only at hknobs
      rw [hknobs]
      exact onTick_spent hw hk hpin h hle hs
  | _ => exact hother (fun _ _ _ => Op.noConfusion) rfl

end

theorem fresh_always (ops : List Op) (i : Nat) : 0 < (stateAt step .new ops i).knobs.raisePeriod ∧ Windows
    (stateAt step .new ops i) ∧ ∀ ep p, (stateAt step .new ops i).peers.lookup ep = some p → Spent 0
    (stateAt step .new ops i).knobs p := by
  refine Machine.invariant_all (P := fun d => 0 < d.knobs.raisePeriod ∧ Windows d ∧
    ∀ ep p, d.peers.lookup ep = some p → Spent 0 d.knobs p) ⟨by decide, windows_new, ?_⟩ ?_ i
  · intro ep p hl; cases hl
  intro d op h
  obtain ⟨hk, hw, hspent⟩ := h
  refine ⟨step_raisePeriod hk, hw.step op, fun ep q hl => ?_⟩
  have hstep := step_spent hw hk (hspent ep) (Nat.zero_le _) (.inr rfl) op
  exact (hstep.2 q hl).mono (Nat.zero_le _)

theorem campaign_spent {ops : List Op} {i : Nat} {j : Nat} (hij : i ≤ j)
    (hs : ∀ k, i < k → k < j → Searches ep (stateAt step .new ops k)) :
    ∑ k ∈ Ico i j, sentTo ep (emitAt step .new ops k) ≤ (stateAt step .new ops i).knobs.campaignProbes ∧
      (∀ q, (stateAt step .new ops j).peers.lookup ep = some q →
        Spent (∑ k ∈ Ico i j, sentTo ep (emitAt step .new ops k)) (stateAt step .new ops j).knobs q) ∧
      (i = j ∨ Searches ep (stateAt step .new ops j) → (stateAt step .new ops j).knobs.campaignProbes =
          (stateAt step .new ops i).knobs.campaignProbes) := by
  induction j, hij using Nat.le_induction with
  | base =>
    rw [Ico_self]
    exact ⟨Nat.zero_le _, (fresh_always ops i).2.2 ep, fun _ => rfl⟩
  | succ j hij ih =>
    obtain ⟨hle, hspent, hsame⟩ := ih fun k hk hkj => hs k hk (Nat.lt_succ_of_lt hkj)
    obtain ⟨hk, hw, _⟩ := fresh_always ops j
    have hactive : i = j ∨ Searches ep (stateAt step .new ops j) := by
      rcases Nat.eq_or_lt_of_le hij with h | h
      · exact .inl h
      exact .inr (hs j h (Nat.lt_succ_self j))
    have hbound := hsame hactive
    rw [Finset.sum_Ico_succ_top hij]
    cases hop : ops[j]? with
    | none =>
      rw [Machine.stateAt_succ_of_none _ _ _ hop]
      have hemit : emitAt step .new ops j = [] := by simp only [emitAt, hop]
      rw [hemit]
      exact ⟨hle, hspent, fun _ => hbound⟩
    | some op =>
      rw [Machine.stateAt_succ _ _ _ hop]
      have hemit : emitAt step .new ops j = (step (stateAt step .new ops j) op).2 := by
        simp only [emitAt, hop]
      rw [hemit]
      have hstart : Searches ep (stateAt step .new ops j) ∨
          ∑ k ∈ Ico i j, sentTo ep (emitAt step .new ops k) = 0 := by
        rcases hactive with h | h
        · subst h; exact .inr (by rw [Ico_self]; rfl)
        exact .inl h
      have hstep := step_spent hw hk hspent (hle.trans (le_of_eq hbound.symm)) hstart op
      refine ⟨hstep.1.trans (le_of_eq hbound), hstep.2, fun h => ?_⟩
      rcases h with h | h
      · omega
      exact (step_campaignProbes hw h).trans hbound

/-- A search never wedges and every campaign is bounded: a reachable search without a probe is among those the
next tick chooses from, and from the end of one rest to the next a peer is sent no more than the budget and two
rounds of confirmations. -/
theorem searches_progress_within_budget (ops : List Op) (ep : SocketAddr) :
    (∀ i p, (stateAt step .new ops i).peers.lookup ep = some p → p.phase.isSearching = true →
      p.inflight = none → p.grace = none →
        p.wantsProbe = true ∧ ∀ now inputs order, ep ∈ inputs.map PeerTickInput.addr →
          ep ∈ ((stateAt step .new ops i).prepared now inputs order).1.want (inputs.map PeerTickInput.addr)) ∧
      ∀ i j, (∀ k, i < k → k < j → Searches ep (stateAt step .new ops k)) →
        ∑ k ∈ Ico i j, sentTo ep (emitAt step .new ops k) ≤
          (stateAt step .new ops i).knobs.maxProbesPerSearch + 2 * (stateAt step .new ops i).knobs.confirmCount := by
  constructor
  · intro i p hl hp hi hg
    obtain ⟨hw, ha⟩ := Aimed.kept.always ops i
    refine ⟨(ha ep p hl).wantsProbe hp ⟨hi, hg⟩, fun now inputs order hin => ?_⟩
    have hpin : (stateAt step .new ops i).pinned = none := by
      cases hpin : (stateAt step .new ops i).pinned with
      | none => rfl
      | some m =>
        unfold Windows at hw
        simp only [hpin] at hw
        rw [(hw.2.2 ep p hl).frozen] at hp
        cases hp
    exact mem_want ((windows_of_none hpin).mp hw ep p hl) (ha ep p hl) hp ⟨hi, hg⟩ hl hin order
  intro i j hs
  by_cases hij : i ≤ j
  · exact (campaign_spent hij hs).1
  rw [Finset.Ico_eq_empty (by omega), Finset.sum_empty]
  exact Nat.zero_le _

/-! A first search under way: its probe of 1252 bytes has been acknowledged and the next is wanted. -/

def midSearch : List Op := firstSearch ++ [.onAck remoteA 1252 1 2 (secs 60 + 1), tickAt 61]

theorem mid_search_wanted : ((stateAt step .new midSearch 3).peers.lookup remoteA).any (·.wantsProbe) = true ∧
    ∑ k ∈ Ico 1 4, sentTo remoteA (emitAt step .new midSearch k) = 2 ∧ ∑ k ∈ Ico 1 4, sentTo
    remoteA (emitAt step .new midSearch k) ≤ 64 + 2 * 3 := by
  refine ⟨by decide +kernel, by decide +kernel, ?_⟩
  refine (searches_progress_within_budget midSearch remoteA).2 1 4 fun k hk hk' => ?_
  have hsearches : ∀ k, ((stateAt step .new midSearch k).peers.lookup remoteA).any (·.phase.isSearching) = true →
      Searches remoteA (stateAt step .new midSearch k) := by
    intro k h
    obtain ⟨p, hp, hph⟩ := (Option.any_eq_true _ _).mp h
    exact ⟨p, hp, hph⟩
  have hk : k = 2 ∨ k = 3 := by omega
  rcases hk with rfl | rfl
  · exact hsearches 2 (by decide +kernel)
  exact hsearches 3 (by decide +kernel)

end ConnectUnit.Pmtud
