import ConnectUnit.Lib.WindowMin
import ConnectUnit.RoutingSound

/-!
# The base of the measured delays

A route keeps the lowest round trip and the lowest forward delay of late as bases that queuing is measured against.
-/

open Machine (stateAt stateAt_succ)

namespace ConnectUnit

open WindowMin

variable {x base rttMs : ℚ} {now : Instant} {cg : CongestionTuning}

namespace RouteEntry

/-! ## What a sample does -/

theorem windowMin_eq {window : List ℚ} : windowMin window.min? x = least x window := by
  unfold windowMin least
  cases window.min? with
  | none => rfl
  | some m => exact min_comm m x

section
variable (e : RouteEntry) (x : ℚ) (now : Instant) (cg : CongestionTuning)

theorem adoptRttWindow_eq {low : ℚ} : e.adoptRttWindow low cg = { e with
    rttBaseMs := (settle cg.baseRttStaleWindows 255 e.rttBaseMs e.rttBaseStaleCount low).1
    rttBaseStaleCount := (settle cg.baseRttStaleWindows 255 e.rttBaseMs e.rttBaseStaleCount low).2 } := by
  unfold adoptRttWindow settle
  dsimp only
  split
  · rfl
  split
  · split <;> rfl
  rfl

theorem refreshQueuingDelay_base : e.refreshQueuingDelay.rttBaseMs = e.rttBaseMs ∧
    e.refreshQueuingDelay.rttBaseWindowMin = e.rttBaseWindowMin ∧ e.refreshQueuingDelay.rttBaseWindowStart =
    e.rttBaseWindowStart ∧ e.refreshQueuingDelay.rttBaseStaleCount = e.rttBaseStaleCount := by
  unfold refreshQueuingDelay
  split <;> exact ⟨rfl, rfl, rfl, rfl⟩

theorem adoptOwdWindow_eq (base low : ℚ) : (e.adoptOwdWindow base low cg).1.owdBaseStaleCount =
        (settle cg.baseRttStaleWindows 255 base e.owdBaseStaleCount low).2 ∧
      (e.owdBaseMs = some base → (e.adoptOwdWindow base low cg).1.owdBaseMs =
        some (settle cg.baseRttStaleWindows 255 base e.owdBaseStaleCount low).1) := by
  unfold adoptOwdWindow settle
  dsimp only
  split
  · exact ⟨rfl, fun _ => rfl⟩
  split
  · split
    · exact ⟨rfl, fun _ => rfl⟩
    · exact ⟨rfl, fun h => h⟩
  · exact ⟨rfl, fun h => h⟩

end

def RttTracks (h : History ℚ) (e : RouteEntry) : Prop :=
  Tracks h e.rttBaseMs e.rttBaseWindowMin e.rttBaseWindowStart e.rttBaseStaleCount

def OwdTracks (h : History ℚ) (base : ℚ) (e : RouteEntry) : Prop :=
  e.owdBaseMs = some base ∧ Tracks h base e.owdBaseWindowMin e.owdBaseWindowStart e.owdBaseStaleCount

theorem OwdTracks.residual {h : History ℚ} {e : RouteEntry} (ht : OwdTracks h base e) :
    OwdTracks h base (e.noteOwdAppliedResidual x rttMs) :=
  ⟨ht.1, ht.2⟩

section
variable {e : RouteEntry} {h : History ℚ} {cg : CongestionTuning} (hon : cg.rttBaseTracking = true) (x : ℚ)
  (now : Instant)
include hon

theorem rtt_first (hcold : e.rttBaseMs < 0) (hstale : e.rttBaseStaleCount = 0) :
    (e.updateRttBaseOnSample x now cg).rttBaseMs = x ∧ RttTracks (.start now x) (e.updateRttBaseOnSample x now cg) ∧
    (e.updateRttBaseOnSample x now cg).rttBaseStaleCount = 0 := by
  unfold updateRttBaseOnSample
  rw [hon, if_neg (by decide), if_pos hcold]
  refine ⟨rfl, ?_, hstale⟩
  show Tracks _ x (some x) now e.rttBaseStaleCount
  rw [hstale]
  exact tracks_start

theorem updateRtt_open (hwarm : ¬ e.rttBaseMs < 0)
    (hopen : ¬ now - e.rttBaseWindowStart ≥ secs cg.baseRttWindowSecs) :
    let e' := e.updateRttBaseOnSample x now cg
    e'.rttBaseMs = e.rttBaseMs ∧ e'.rttBaseWindowMin = some (windowMin e.rttBaseWindowMin x) ∧
      e'.rttBaseWindowStart = e.rttBaseWindowStart ∧ e'.rttBaseStaleCount = e.rttBaseStaleCount := by
  unfold updateRttBaseOnSample
  dsimp only
  rw [hon, if_neg (by decide), if_neg hwarm, if_neg hopen]
  exact refreshQueuingDelay_base _

theorem updateRtt_closed (hwarm : ¬ e.rttBaseMs < 0)
    (hlong : now - e.rttBaseWindowStart ≥ secs cg.baseRttWindowSecs) :
    let e' := e.updateRttBaseOnSample x now cg
    let r := settle cg.baseRttStaleWindows 255 e.rttBaseMs e.rttBaseStaleCount (windowMin e.rttBaseWindowMin x)
    e'.rttBaseMs = r.1 ∧ e'.rttBaseWindowMin = none ∧ e'.rttBaseWindowStart = now ∧ e'.rttBaseStaleCount = r.2 := by
  unfold updateRttBaseOnSample
  dsimp only
  rw [hon, if_neg (by decide), if_neg hwarm, if_pos hlong, adoptRttWindow_eq]
  exact refreshQueuingDelay_base _

theorem rtt_next (hwarm : ¬ e.rttBaseMs < 0) (ht : RttTracks h e) :
    RttTracks (h.add (secs cg.baseRttWindowSecs) now x) (e.updateRttBaseOnSample x now cg) ∧
      Sampled (secs cg.baseRttWindowSecs) cg.baseRttStaleWindows h now x e.rttBaseMs
        (e.updateRttBaseOnSample x now cg).rttBaseMs ∧
      ((e.updateRttBaseOnSample x now cg).rttBaseMs < 0 →
        (e.updateRttBaseOnSample x now cg).rttBaseStaleCount = 0) := by
  have hlow : windowMin e.rttBaseWindowMin x = least x h.window := by rw [ht.low_eq, windowMin_eq]
  have helapsed :
      h.Closes (secs cg.baseRttWindowSecs) now ↔ now - e.rttBaseWindowStart ≥ secs cg.baseRttWindowSecs := by
    rw [h.closes_iff, ht.opened_eq]
  by_cases hlong : now - e.rttBaseWindowStart ≥ secs cg.baseRttWindowSecs
  · obtain ⟨hb, hw, ho, hs⟩ := updateRtt_closed hon x now hwarm hlong
    obtain ⟨htracks, hsampled⟩ := Tracks.closes ht x (helapsed.mpr hlong) cg.baseRttStaleWindows 255
    unfold RttTracks
    rw [hb, hw, ho, hs, hlow]
    exact ⟨htracks, hsampled, fun hneg => settle_stale (lt_of_lt_of_le hneg (not_lt.mp hwarm))⟩
  obtain ⟨hb, hw, ho, hs⟩ := updateRtt_open hon x now hwarm hlong
  obtain ⟨htracks, hsampled⟩ := Tracks.stays ht x (fun hcloses => hlong (helapsed.mp hcloses)) cg.baseRttStaleWindows
  unfold RttTracks
  rw [hb, hw, ho, hs, hlow]
  exact ⟨htracks, hsampled, fun hneg => absurd hneg hwarm⟩

omit hon in
theorem warmOwdSample_open (base : ℚ) (hopen : ¬ now - e.owdBaseWindowStart ≥ secs cg.baseRttWindowSecs) :
    let e' := e.warmOwdSample base x now cg
    e'.owdBaseMs = e.owdBaseMs ∧ e'.owdBaseWindowMin = some (windowMin e.owdBaseWindowMin x) ∧
      e'.owdBaseWindowStart = e.owdBaseWindowStart ∧ e'.owdBaseStaleCount = e.owdBaseStaleCount := by
  simp only [warmOwdSample, if_neg hopen, and_self]

omit hon in
theorem warmOwdSample_closed (hbase : e.owdBaseMs = some base)
    (hlong : now - e.owdBaseWindowStart ≥ secs cg.baseRttWindowSecs) :
    let e' := e.warmOwdSample base x now cg
    let r := settle cg.baseRttStaleWindows 255 base e.owdBaseStaleCount (windowMin e.owdBaseWindowMin x)
    e'.owdBaseMs = some r.1 ∧ e'.owdBaseWindowMin = none ∧ e'.owdBaseWindowStart = now ∧
      e'.owdBaseStaleCount = r.2 := by
  obtain ⟨hstale, hadopted⟩ := adoptOwdWindow_eq e cg base (windowMin e.owdBaseWindowMin x)
  simp only [warmOwdSample, if_pos hlong, hadopted hbase, hstale, and_self]

omit hon in
theorem owd_next (ht : OwdTracks h base e) : ∃ base', OwdTracks (h.add (secs cg.baseRttWindowSecs) now x)
    base' (e.warmOwdSample base x now cg) ∧ Sampled (secs cg.baseRttWindowSecs) cg.baseRttStaleWindows h now x base
    base' := by
  obtain ⟨hbase, ht⟩ := ht
  have hlow : windowMin e.owdBaseWindowMin x = least x h.window := by rw [ht.low_eq, windowMin_eq]
  have helapsed :
      h.Closes (secs cg.baseRttWindowSecs) now ↔ now - e.owdBaseWindowStart ≥ secs cg.baseRttWindowSecs := by
    rw [h.closes_iff, ht.opened_eq]
  by_cases hlong : now - e.owdBaseWindowStart ≥ secs cg.baseRttWindowSecs
  · obtain ⟨hb, hw, ho, hs⟩ := warmOwdSample_closed x now hbase hlong
    obtain ⟨htracks, hsampled⟩ := Tracks.closes ht x (helapsed.mpr hlong) cg.baseRttStaleWindows 255
    rw [hlow] at hb hs
    refine ⟨_, ⟨hb, ?_⟩, hsampled⟩
    rw [hw, ho, hs]
    exact htracks
  obtain ⟨hb, hw, ho, hs⟩ := warmOwdSample_open x now base hlong
  obtain ⟨htracks, hsampled⟩ := Tracks.stays ht x (fun hcloses => hlong (helapsed.mp hcloses)) cg.baseRttStaleWindows
  refine ⟨base, ⟨hb.trans hbase, ?_⟩, hsampled⟩
  rw [hw, ho, hs, hlow]
  exact htracks

omit hon in
theorem updateOwd_cases : e.updateOwdBaseOnSample x rttMs now cg
    = (e, .ignored) ∨ e.updateOwdBaseOnSample x rttMs now cg = (e.resetOwdBaseCold now, .rejected) ∨ e.owdBaseMs =
    none ∧ e.updateOwdBaseOnSample x rttMs now cg = ((e.coldOwdSample x now).noteOwdAppliedResidual x rttMs, .applied)
    ∨ ∃ base, e.owdBaseMs = some base ∧ e.updateOwdBaseOnSample x rttMs now cg =
    ((e.warmOwdSample base x now cg).noteOwdAppliedResidual x rttMs, .applied) := by
  unfold updateOwdBaseOnSample
  split
  · exact .inl rfl
  split
  · exact .inr (.inl rfl)
  split
  · rename_i hbase
    exact .inr (.inr (.inl ⟨hbase, rfl⟩))
  rename_i base hbase
  exact .inr (.inr (.inr ⟨base, hbase, rfl⟩))

end

/-! ## Samples of both kinds -/

inductive BaseSample where
  | rtt (rttSampleMs : ℚ)
  | owd (owdSampleMs rttMs : ℚ)

structure Watched where
  entry : RouteEntry
  rtt : Option (History ℚ)
  owd : Option (History ℚ)

def follow (h : Option (History ℚ)) (length : Nat) (now : Instant) (x : ℚ) : History ℚ :=
  match h with
  | none => .start now x
  | some h => h.add length now x

namespace Watched

def step (cg : CongestionTuning) (w : Watched) (s : Instant × BaseSample) : Watched × List Empty :=
  match s.2 with
  | .rtt x =>
    let entry := w.entry.updateRttBaseOnSample x s.1 cg
    ({ w with
        entry := entry
        rtt := if !cg.rttBaseTracking then w.rtt
          else if entry.rttBaseMs < 0 then none
          else some (follow w.rtt (secs cg.baseRttWindowSecs) s.1 x) }, [])
  | .owd x rttMs =>
    let r := w.entry.updateOwdBaseOnSample x rttMs s.1 cg
    ({ w with
        entry := r.1
        owd := match r.2 with
          | .ignored => w.owd
          | .rejected => none
          | .applied => some (follow w.owd (secs cg.baseRttWindowSecs) s.1 x) }, [])

structure Follows (w : Watched) : Prop where
  rtt_none : w.rtt = none → w.entry.rttBaseMs < 0 ∧ w.entry.rttBaseStaleCount = 0
  rtt_some : ∀ h, w.rtt = some h → ¬ w.entry.rttBaseMs < 0 ∧ RttTracks h w.entry
  owd_none : w.owd = none → w.entry.owdBaseMs = none
  owd_some : ∀ h, w.owd = some h → ∃ base, OwdTracks h base w.entry

section
variable {w : Watched} (hw : Follows w) {cg : CongestionTuning} (now : Instant) (x : ℚ)
include hw

theorem Follows.rtt_sample (hon : cg.rttBaseTracking = true) :
    let e' := w.entry.updateRttBaseOnSample x now cg
    let h' := follow w.rtt (secs cg.baseRttWindowSecs) now x
    (w.rtt = none → e'.rttBaseMs = x) ∧
    (∀ h, w.rtt = some h →
      Sampled (secs cg.baseRttWindowSecs) cg.baseRttStaleWindows h now x w.entry.rttBaseMs e'.rttBaseMs) ∧
    RttTracks h' e' ∧ (e'.rttBaseMs < 0 → e'.rttBaseStaleCount = 0) := by
  cases hr : w.rtt with
  | none =>
    obtain ⟨hcold, hstale⟩ := hw.rtt_none hr
    obtain ⟨hbase, htracks, hstale'⟩ := rtt_first hon x now hcold hstale
    exact ⟨fun _ => hbase, nofun, htracks, fun _ => hstale'⟩
  | some h =>
    obtain ⟨hwarm, htracks⟩ := hw.rtt_some h hr
    obtain ⟨htracks', hsampled, hstale⟩ := rtt_next hon x now hwarm htracks
    refine ⟨nofun, ?_, htracks', hstale⟩
    rintro _ ⟨⟩
    exact hsampled

theorem Follows.step_rtt : Follows (step cg w (now, .rtt x)).1 := by
  cases hon : cg.rttBaseTracking with
  | false =>
    have hsame : w.entry.updateRttBaseOnSample x now cg = w.entry := by
      simp only [updateRttBaseOnSample, hon, Bool.not_false, if_true]
    unfold step
    dsimp only
    rw [hsame, hon]
    exact hw
  | true =>
    obtain ⟨_, _, htracks, hstale⟩ := hw.rtt_sample now x hon
    obtain ⟨_, _, _, _, _, hframe⟩ := RoutingTable.updateRttBaseOnSample_frame w.entry x now cg
    have howd (h : History ℚ) (base : ℚ) (ho : OwdTracks h base w.entry) :
        OwdTracks h base (w.entry.updateRttBaseOnSample x now cg) := by
      rw [hframe]
      exact ho
    unfold step
    dsimp only
    rw [hon]
    simp only [Bool.not_true, Bool.false_eq_true, if_false]
    refine ⟨fun hnone => ?_, fun h hsome => ?_, fun hnone => ?_, fun h hsome => ?_⟩
    · by_cases hneg : (w.entry.updateRttBaseOnSample x now cg).rttBaseMs < 0
      · exact ⟨hneg, hstale hneg⟩
      · rw [if_neg hneg] at hnone
        cases hnone
    · by_cases hneg : (w.entry.updateRttBaseOnSample x now cg).rttBaseMs < 0
      · rw [if_pos hneg] at hsome
        cases hsome
      · rw [if_neg hneg] at hsome
        cases hsome
        exact ⟨hneg, htracks⟩
    · show (w.entry.updateRttBaseOnSample x now cg).owdBaseMs = none
      rw [hframe]
      exact hw.owd_none hnone
    · obtain ⟨base, ho⟩ := hw.owd_some h hsome
      exact ⟨base, howd h base ho⟩

theorem Follows.owd_sample (cg : CongestionTuning) (rttMs : ℚ) :
    let r := w.entry.updateOwdBaseOnSample x rttMs now cg
    (r.2 = .ignored → r.1 = w.entry) ∧ (r.2 = .rejected → r.1.owdBaseMs = none) ∧
    (r.2 = .applied → (w.owd = none → r.1.owdBaseMs = some x) ∧
      ∃ base', OwdTracks (follow w.owd (secs cg.baseRttWindowSecs) now x) base' r.1 ∧
        ∀ h, w.owd = some h → ∃ base, w.entry.owdBaseMs = some base ∧
          Sampled (secs cg.baseRttWindowSecs) cg.baseRttStaleWindows h now x base base') := by
  rcases updateOwd_cases x now with h | h | ⟨hcold, h⟩ | ⟨base, hbase, h⟩
  · rw [h]
    exact ⟨fun _ => rfl, nofun, nofun⟩
  · rw [h]
    exact ⟨nofun, fun _ => rfl, nofun⟩
  · rw [h]
    refine ⟨nofun, nofun, fun _ => ⟨fun _ => rfl, ?_⟩⟩
    cases ho : w.owd with
    | none =>
      have htracks : OwdTracks (.start now x) x (w.entry.coldOwdSample x now) := ⟨rfl, tracks_start⟩
      exact ⟨x, htracks.residual, nofun⟩
    | some h =>
      obtain ⟨base, hbase, _⟩ := hw.owd_some h ho
      cases hcold.symm.trans hbase
  · rw [h]
    cases ho : w.owd with
    | none => cases hbase.symm.trans (hw.owd_none ho)
    | some h =>
      obtain ⟨base₀, htracks⟩ := hw.owd_some h ho
      cases htracks.1.symm.trans hbase
      obtain ⟨base', htracks', hsampled⟩ := owd_next x now htracks
      refine ⟨nofun, nofun, fun _ => ⟨nofun, base', htracks'.residual, ?_⟩⟩
      rintro _ ⟨⟩
      exact ⟨base, hbase, hsampled⟩

theorem Follows.step_owd : Follows (step cg w (now, .owd x rttMs)).1 := by
  obtain ⟨hignored, hrejected, happlied⟩ := hw.owd_sample now x cg rttMs
  obtain ⟨_, _, _, _, _, _, _, hframe⟩ := RoutingTable.updateOwdBaseOnSample_frame w.entry x rttMs now cg
  have hrtt : (w.rtt = none → (w.entry.updateOwdBaseOnSample x rttMs now cg).1.rttBaseMs < 0 ∧
        (w.entry.updateOwdBaseOnSample x rttMs now cg).1.rttBaseStaleCount = 0) ∧
      ∀ h, w.rtt = some h → ¬ (w.entry.updateOwdBaseOnSample x rttMs now cg).1.rttBaseMs < 0 ∧
        RttTracks h (w.entry.updateOwdBaseOnSample x rttMs now cg).1 := by
    rw [hframe]
    exact ⟨hw.rtt_none, hw.rtt_some⟩
  unfold step
  dsimp only
  generalize w.entry.updateOwdBaseOnSample x rttMs now cg = r at *
  obtain ⟨e', outcome⟩ := r
  cases outcome with
  | ignored =>
    cases hignored rfl
    exact hw
  | rejected => exact ⟨hrtt.1, hrtt.2, fun _ => hrejected rfl, nofun⟩
  | applied =>
    obtain ⟨_, base', htracks, _⟩ := happlied rfl
    refine ⟨hrtt.1, hrtt.2, nofun, ?_⟩
    rintro _ ⟨⟩
    exact ⟨base', htracks⟩

theorem Follows.step (s : Instant × BaseSample) : Follows (Watched.step cg w s).1 := by
  obtain ⟨now, sample⟩ := s
  cases sample with
  | rtt x => exact hw.step_rtt now x
  | owd x rttMs => exact hw.step_owd now x

end

/-! ## Runs -/

def fresh (ep : SocketAddr) (qualityInitial : Int) (now : Instant) : Watched :=
  ⟨.new ep qualityInitial now, none, none⟩

theorem follows_run (cg : CongestionTuning) (ep : SocketAddr) (qualityInitial : Int) (start : Instant)
    (samples : List (Instant × BaseSample)) (i : Nat) :
    Follows (stateAt (step cg) (fresh ep qualityInitial start) samples i) := by
  have hfresh : Follows (fresh ep qualityInitial start) :=
    ⟨fun _ => ⟨by show (-1 : ℚ) < 0; norm_num, rfl⟩, nofun, fun _ => rfl, nofun⟩
  exact Machine.invariant_all hfresh (fun _ s hw => hw.step s) i

def rttSamples (samples : List (Instant × BaseSample)) : List ℚ :=
  samples.filterMap fun s => match s.2 with
    | .rtt x => some x
    | .owd .. => none

def seen (h : Option (History ℚ)) : List ℚ := h.elim [] (·.seen)

theorem follow_seen {h : Option (History ℚ)} {length : Nat} : (follow h length now x).seen = x :: seen h := by
  cases h with
  | none => rfl
  | some h =>
    show (h.add length now x).seen = x :: h.seen
    unfold History.add
    split <;> rfl

theorem Follows.seen_rtt {w : Watched} (hw : Follows w) (hon : cg.rttBaseTracking = true)
    (hx : 0 ≤ x) (hold : ∀ y ∈ seen w.rtt, 0 ≤ y) :
    seen (Watched.step cg w (now, .rtt x)).1.rtt = x :: seen w.rtt := by
  obtain ⟨hfirst, hnext, _, _⟩ := hw.rtt_sample now x hon
  have hbase : ¬ (w.entry.updateRttBaseOnSample x now cg).rttBaseMs < 0 := by
    rw [not_lt]
    cases hr : w.rtt with
    | none =>
      rw [hfirst hr]
      exact hx
    | some h =>
      rcases List.mem_cons.mp (hnext h hr).seen with heq | hmem
      · rw [heq]
        exact hx
      exact hold _ (hr ▸ hmem)
  unfold Watched.step
  dsimp only
  rw [hon, if_neg (by decide), if_neg hbase]
  exact follow_seen

theorem seen_run (hon : cg.rttBaseTracking = true) (ep : SocketAddr) (qualityInitial : Int)
    (start : Instant) {samples : List (Instant × BaseSample)} (hpos : ∀ x ∈ rttSamples samples, 0 ≤ x) (i : Nat) :
    seen (stateAt (step cg) (fresh ep qualityInitial start) samples i).rtt =
    (rttSamples (samples.take i)).reverse := by
  induction i with
  | zero => rfl
  | succ i ih =>
    have hw := follows_run cg ep qualityInitial start samples i
    have hold : ∀ y ∈ rttSamples (samples.take i), 0 ≤ y := fun y hy =>
      hpos y (((List.take_sublist i samples).filterMap _).subset hy)
    cases hs : samples[i]? with
    | none =>
      rw [Machine.stateAt_succ_of_none (step cg) _ samples hs, ih, List.take_add_one, hs, Option.toList_none,
        List.append_nil]
    | some s =>
      rw [stateAt_succ (step cg) _ samples hs, List.take_add_one, hs, Option.toList_some]
      unfold rttSamples at *
      rw [List.filterMap_append, List.reverse_append, ← ih]
      obtain ⟨now, sample⟩ := s
      cases sample with
      | owd x rttMs => rfl
      | rtt x =>
        have hx : 0 ≤ x := hpos x (List.mem_filterMap.mpr ⟨_, List.mem_of_getElem? hs, rfl⟩)
        refine hw.seen_rtt hon hx fun y hy => hold y ?_
        rw [ih] at hy
        exact List.mem_reverse.mp hy

def risingRtt : List (Instant × BaseSample) :=
  [(0, .rtt 10), (secs 1, .rtt 20), (secs 2, .rtt 20), (secs 3, .rtt 30)]

def twoStaleWindows : CongestionTuning := { baseRttWindowSecs := 1, baseRttStaleWindows := 2 }

end Watched

end RouteEntry

end ConnectUnit
