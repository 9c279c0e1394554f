import ConnectUnit.Lib.Search
import ConnectUnit.Routing

/-!
# Switching between paths

`reselect_active` leaves a path that cannot be used, or is far worse than the best one, at once.
-/

open Machine (stateAt)

namespace ConnectUnit

variable {ps ps' : PathSet} {i : Nat} {p : PathCandidate} {advanced : Bool} {now : Instant}

namespace PathSet

/-! ## Runs of a path set -/

def setSrflx (ps : PathSet) (endpoint : SocketAddr) (now : Instant) : PathSet :=
  { ps with path2 := some (.new .iceSrflx endpoint false now) }

def clearRelay (ps : PathSet) : PathSet :=
  { ps.clearSwitch with path1 := none, activeIdx := if ps.activeIdx = 1 then 0 else ps.activeIdx }

inductive Op where
  | setDirect (endpoint : SocketAddr)
  | setRelay (endpoint : SocketAddr)
  | setSrflx (endpoint : SocketAddr)
  | clearRelay
  | noteRtt (ep : SocketAddr) (rttMs : ℚ) (ewma : RoutingEwmaTuning)
  | noteFailure (ep : SocketAddr) (ewma : RoutingEwmaTuning)
  | noteBandwidth (ep : SocketAddr) (bytes elapsedMs : Nat) (ewma : RoutingEwmaTuning)
  | reselectActive (advancedScoring : Bool)

def apply (ps : PathSet) (now : Instant) : Op → PathSet
  | .setDirect endpoint => ps.setDirect endpoint now
  | .setRelay endpoint => ps.setRelay endpoint now
  | .setSrflx endpoint => ps.setSrflx endpoint now
  | .clearRelay => ps.clearRelay
  | .noteRtt ep rttMs ewma => ps.noteRttForEndpoint ep rttMs ewma now
  | .noteFailure ep ewma => ps.noteFailureForEndpoint ep ewma
  | .noteBandwidth ep bytes elapsedMs ewma => ps.noteBandwidthForEndpoint ep bytes elapsedMs ewma
  | .reselectActive advancedScoring => ps.reselectActive advancedScoring now

def step (ps : PathSet) (op : Instant × Op) : PathSet × List Empty := (ps.apply op.1 op.2, [])

/-! ## The best path -/

def usable? (ps : PathSet) (i : Nat) : Option PathCandidate := (ps.paths[i]?).join.filter PathCandidate.isUsable

/-- The path is usable and no usable one has a higher score. -/
structure IsBest (ps : PathSet) (advanced : Bool) (i : Nat) (p : PathCandidate) : Prop where
  usable : ps.usable? i = some p
  greatest : ∀ k q, ps.usable? k = some q → pathScore q advanced ≤ pathScore p advanced

theorem currentScore_eq :
    ps.currentScore advanced = ((ps.usable? ps.activeIdx).map (pathScore · advanced)).getD 0 := by
  unfold currentScore usable?
  cases (ps.paths[ps.activeIdx]?).join.filter PathCandidate.isUsable <;> rfl

theorem mem_usable : (i, p) ∈
    (ps.paths.zipIdx.filterMap fun (p, i) => (p.filter PathCandidate.isUsable).map fun p => (i, p)) ↔ ps.usable? i =
    some p := by
  unfold usable?
  simp only [List.mem_filterMap, Prod.exists, List.mem_zipIdx_iff_getElem?, Option.map_eq_some_iff, Prod.mk.injEq]
  constructor
  · rintro ⟨o, k, hk, q, hq, rfl, rfl⟩
    rw [hk]
    exact hq
  intro h
  cases hk : ps.paths[i]? with
  | none => rw [hk] at h; cases h
  | some o => exact ⟨o, i, hk, p, by rw [hk] at h; exact h, rfl, rfl⟩

theorem bestPath_some (h : ps.bestPath advanced = some (i, p)) : ps.IsBest advanced i p := by
  obtain ⟨hmem, hgreatest, _⟩ := Search.foldl_greatest (s := fun c : Nat × PathCandidate => pathScore c.2 advanced)
    (fun _ => rfl) (fun _ _ => rfl) h
  exact ⟨mem_usable.mp (hmem.resolve_right nofun), fun k q hq => hgreatest (k, q) (mem_usable.mpr hq)⟩

theorem bestPath_none (h : ps.bestPath advanced = none) (i : Nat) : ps.usable? i = none := by
  obtain ⟨hnil, _⟩ := Search.foldl_eq_none (s := fun c : Nat × PathCandidate => pathScore c.2 advanced)
    (fun _ => rfl) (fun _ _ => rfl) h
  cases hp : ps.usable? i with
  | none => rfl
  | some p => cases hnil ▸ mem_usable.mpr hp

/-! ## What a call can do -/

def gap (ps : PathSet) (advanced : Bool) (p : PathCandidate) : ℚ := pathScore p advanced - ps.currentScore advanced

inductive Reselects (ps : PathSet) (advanced : Bool) (now : Instant) : PathSet → Prop where
  | unusable (h : ∀ i, ps.usable? i = none) : Reselects ps advanced now ps
  | stays {p : PathCandidate} (h : ps.IsBest advanced ps.activeIdx p) : Reselects ps advanced now ps.clearSwitch
  | switches {j : Nat} {p : PathCandidate} (h : ps.IsBest advanced j p)
      (hwhy : ps.currentScore advanced < 0.1 ∨ 0.40 ≤ ps.gap advanced p ∨
        0.15 ≤ ps.gap advanced p ∧ ps.switchCandidateIdx = some j ∧
          secs 3 ≤ now - ps.switchCandidateSince.getD now) : Reselects ps advanced now (ps.switchTo j)
  | waits {j : Nat} {p : PathCandidate} (h : ps.IsBest advanced j p) (hcalm : 0.1 ≤ ps.currentScore advanced)
      (hgap : 0.15 ≤ ps.gap advanced p) (hcandidate : ps.switchCandidateIdx = some j) : Reselects ps advanced now ps
  | arms {j : Nat} {p : PathCandidate} (h : ps.IsBest advanced j p) (hcalm : 0.1 ≤ ps.currentScore advanced)
      (hgap : 0.15 ≤ ps.gap advanced p) :
      Reselects ps advanced now { ps with switchCandidateIdx := some j, switchCandidateSince := some now }
  | forgets (hcalm : 0.1 ≤ ps.currentScore advanced) : Reselects ps advanced now ps.clearSwitch

theorem reselects (ps : PathSet) (advanced : Bool) (now : Instant) :
    Reselects ps advanced now (ps.reselectActive advanced now) := by
  unfold reselectActive
  cases hb : ps.bestPath advanced with
  | none => exact .unusable (bestPath_none hb)
  | some best =>
    obtain ⟨j, p⟩ := best
    have hbest : ps.IsBest advanced j p := bestPath_some hb
    dsimp only
    split
    · rename_i hj
      exact .stays (hj ▸ hbest)
    split
    · rename_i hforced
      exact .switches hbest (hforced.elim (fun h => .inr (.inl h)) .inl)
    rename_i hcalm
    obtain ⟨_, hcalm⟩ := not_or.mp hcalm
    split
    · rename_i hgap
      split
      · rename_i hcandidate
        split
        · rename_i hlong
          exact .switches hbest (.inr (.inr ⟨hgap, hcandidate, hlong⟩))
        exact .waits hbest (not_lt.mp hcalm) hgap hcandidate
      · exact .arms hbest (not_lt.mp hcalm) hgap
    · exact .forgets (not_lt.mp hcalm)

theorem usable_of_calm (h : 0.1 ≤ ps.currentScore advanced) : (ps.usable? ps.activeIdx).isSome = true := by
  rw [currentScore_eq] at h
  cases hp : ps.usable? ps.activeIdx with
  | some p => rfl
  | none =>
    rw [hp] at h
    exact absurd h (by norm_num)

theorem active_usable (h : Reselects ps advanced now ps')
    (hi : (ps.usable? i).isSome = true) : (ps'.usable? ps'.activeIdx).isSome = true := by
  cases h with
  | unusable h => rw [h i] at hi; cases hi
  | stays h => exact Option.isSome_iff_exists.mpr ⟨_, h.usable⟩
  | switches h _ => exact Option.isSome_iff_exists.mpr ⟨_, h.usable⟩
  | waits _ hcalm _ _ => exact usable_of_calm hcalm
  | arms _ hcalm _ => exact usable_of_calm hcalm
  | forgets hcalm => exact usable_of_calm hcalm

/-! ## The history of a candidate -/

def Leads (ps : PathSet) (advanced : Bool) (j : Nat) : Prop := ∃ p, ps.IsBest advanced j p ∧ 0.15 ≤ ps.gap advanced p

section
variable (start : PathSet) (ops : List (Instant × Op))

/-- From a call of `reselect_active` at this time on, up to the `i`-th operation, each call that found a usable path
found this one in the lead. -/
def LedSince (i j : Nat) (since : Instant) : Prop :=
  ∃ i₀ advanced₀, i₀ < i ∧ ops[i₀]? = some (since, .reselectActive advanced₀) ∧
    ∀ k t advanced, i₀ ≤ k → k < i → ops[k]? = some (t, .reselectActive advanced) →
      (∃ n, ((stateAt step start ops k).usable? n).isSome = true) →
      (stateAt step start ops k).Leads advanced j

variable {start ops} {i j : Nat} {since : Instant}

theorem LedSince.succ (h : LedSince start ops i j since) (hi : ∀ t advanced,
    ops[i]? = some (t, .reselectActive advanced) → (∃ n, ((stateAt step start ops i).usable? n).isSome = true) →
      (stateAt step start ops i).Leads advanced j) : LedSince start ops (i + 1) j since := by
  obtain ⟨i₀, advanced₀, hlt, hcall, hled⟩ := h
  refine ⟨i₀, advanced₀, by omega, hcall, fun k t advanced hge hk => ?_⟩
  rcases Nat.lt_succ_iff_lt_or_eq.mp hk with hk | rfl
  · exact hled k t advanced hge hk
  exact hi t advanced

def Remembered (start : PathSet) (ops : List (Instant × Op)) (i : Nat) (ps : PathSet) : Prop :=
  ∀ j, ps.switchCandidateIdx = some j → ∃ since, ps.switchCandidateSince = some since ∧ LedSince start ops i j since

theorem apply_candidate {op : Op} (hop : ∀ advanced, op ≠ .reselectActive advanced) :
    (ps.apply now op).switchCandidateIdx = none ∨ (ps.apply now op).switchCandidateIdx = ps.switchCandidateIdx ∧
    (ps.apply now op).switchCandidateSince = ps.switchCandidateSince := by
  have hnote (ep : SocketAddr) (f : PathCandidate → PathCandidate) :
      (ps.noteFirst ep f).switchCandidateIdx = ps.switchCandidateIdx ∧
        (ps.noteFirst ep f).switchCandidateSince = ps.switchCandidateSince := by
    unfold noteFirst
    repeat' split
    all_goals exact ⟨rfl, rfl⟩
  cases op with
  | setDirect endpoint =>
    unfold apply setDirect
    cases ps.path0 <;> exact .inr ⟨rfl, rfl⟩
  | setRelay endpoint => exact .inr ⟨rfl, rfl⟩
  | setSrflx endpoint => exact .inr ⟨rfl, rfl⟩
  | clearRelay => exact .inl rfl
  | noteRtt ep rttMs ewma => exact .inr (hnote ep _)
  | noteFailure ep ewma => exact .inr (hnote ep _)
  | noteBandwidth ep bytes elapsedMs ewma => exact .inr (hnote ep _)
  | reselectActive advanced => exact absurd rfl (hop advanced)

theorem Remembered.reselect (h : Remembered start ops i (stateAt step start ops i))
    (hcall : ops[i]? = some (now, .reselectActive advanced))
    (hr : Reselects (stateAt step start ops i) advanced now ps') : Remembered start ops (i + 1) ps' := by
  cases hr with
  | unusable hnone =>
    intro j hj
    obtain ⟨since, hsince, hled⟩ := h j hj
    refine ⟨since, hsince, hled.succ fun _ _ _ husable => ?_⟩
    obtain ⟨n, hn⟩ := husable
    rw [hnone n] at hn
    cases hn
  | waits hbest _ hgap hcandidate =>
    intro j hj
    obtain ⟨since, hsince, hled⟩ := h j hj
    cases hj.symm.trans hcandidate
    refine ⟨since, hsince, hled.succ fun t adv hcall' _ => ?_⟩
    cases hcall.symm.trans hcall'
    exact ⟨_, hbest, hgap⟩
  | arms hbest _ hgap =>
    rintro j ⟨⟩
    refine ⟨now, rfl, i, advanced, Nat.lt_succ_self i, hcall, fun k t adv hge hk hcall' _ => ?_⟩
    cases Nat.le_antisymm hge (Nat.le_of_lt_succ hk)
    cases hcall.symm.trans hcall'
    exact ⟨_, hbest, hgap⟩
  | stays _ => exact nofun
  | switches _ _ => exact nofun
  | forgets _ => exact nofun

theorem remembered (hstart : start.switchCandidateIdx = none) (i : Nat) :
    Remembered start ops i (stateAt step start ops i) := by
  induction i with
  | zero =>
    intro j hj
    rw [Machine.stateAt_zero, hstart] at hj
    cases hj
  | succ i ih =>
    cases hop : ops[i]? with
    | none =>
      rw [Machine.stateAt_succ_of_none step start ops hop]
      intro j hj
      obtain ⟨since, hsince, hled⟩ := ih j hj
      exact ⟨since, hsince, hled.succ fun _ _ h => by rw [hop] at h; cases h⟩
    | some call =>
      rw [Machine.stateAt_succ step start ops hop]
      obtain ⟨now, op⟩ := call
      by_cases hre : ∃ advanced, op = .reselectActive advanced
      · obtain ⟨advanced, rfl⟩ := hre
        exact ih.reselect hop (reselects _ advanced now)
      intro j hj
      rcases apply_candidate (fun adv h => hre ⟨adv, h⟩) with hnone | hsame
      · cases hj.symm.trans hnone
      obtain ⟨since, hsince, hled⟩ := ih j (hsame.1.symm.trans hj)
      refine ⟨since, hsame.2.trans hsince, hled.succ fun t adv h => ?_⟩
      cases hop.symm.trans h
      exact absurd ⟨adv, rfl⟩ hre

end

/-- After a call the active path is usable if any path is. A call that leaves a usable path with a score of at least
0.1 found a gap of 0.4, or its path was in the lead at every call for three seconds that found a usable path. -/
theorem switching : (∀ (ps : PathSet) (advanced : Bool) (now : Instant), (∃ i, (ps.usable? i).isSome = true) →
      ((ps.reselectActive advanced now).usable? (ps.reselectActive advanced now).activeIdx).isSome = true) ∧
    ∀ (start : PathSet) (ops : List (Instant × Op)), start.switchCandidateIdx = none →
      ∀ i now advanced, ops[i]? = some (now, .reselectActive advanced) →
      ∀ ps, ps = stateAt step start ops i →
      ∀ p, ps.usable? ps.activeIdx = some p → 0.1 ≤ pathScore p advanced →
      ∀ j, (ps.reselectActive advanced now).activeIdx = j → j ≠ ps.activeIdx →
        ∃ q, ps.IsBest advanced j q ∧ (0.40 ≤ pathScore q advanced - pathScore p advanced ∨
          ∃ since, secs 3 ≤ now - since ∧ LedSince start ops (i + 1) j since) := by
  refine ⟨fun ps advanced now ⟨i, hi⟩ => active_usable (reselects ps advanced now) hi, ?_⟩
  rintro start ops hstart i now advanced hcall ps rfl p hp hscore j hj hne
  have hcurrent : (stateAt step start ops i).currentScore advanced = pathScore p advanced := by
    rw [currentScore_eq, hp]
    rfl
  have hr := reselects (stateAt step start ops i) advanced now
  generalize (stateAt step start ops i).reselectActive advanced now = ps' at hr hj
  cases hr with
  | switches hbest hwhy =>
    cases hj
    refine ⟨_, hbest, ?_⟩
    rw [← hcurrent] at hscore ⊢
    rcases hwhy with hcrisis | hforced | ⟨hgap, hcandidate, hlong⟩
    · exact absurd hcrisis (not_lt.mpr hscore)
    · exact .inl hforced
    obtain ⟨since, hsince, hled⟩ := remembered hstart i _ hcandidate
    rw [hsince] at hlong
    refine .inr ⟨since, hlong, hled.succ fun t adv hcall' _ => ?_⟩
    cases hcall.symm.trans hcall'
    exact ⟨_, hbest, hgap⟩
  | unusable _ => exact absurd hj.symm hne
  | stays _ => exact absurd hj.symm hne
  | waits _ _ _ _ => exact absurd hj.symm hne
  | arms _ _ _ => exact absurd hj.symm hne
  | forgets _ => exact absurd hj.symm hne

def slowDirect : List (Instant × Op) :=
  [(0, .setRelay (.v4 2 7777)), (0, .noteRtt (.v4 1 7777) 200 {}), (0, .noteRtt (.v4 2 7777) 50 {}),
    (0, .reselectActive false), (secs 3, .reselectActive false)]

theorem slowDirect_switches :
    let ps := stateAt step (.new (.v4 1 7777) 0) slowDirect 4
    ps.activeIdx = 0 ∧ (ps.reselectActive false (secs 3)).activeIdx = 1 ∧
      ∃ q, ps.IsBest false 1 q ∧ (0.40 ≤ pathScore q false - 65 / 100 ∨
        ∃ since, secs 3 ≤ secs 3 - since ∧ LedSince (.new (.v4 1 7777) 0) slowDirect 5 1 since) := by
  intro ps
  have hidle : ps.activeIdx = 0 := by decide +kernel
  have hswitch : (ps.reselectActive false (secs 3)).activeIdx = 1 := by decide +kernel
  refine ⟨hidle, hswitch, ?_⟩
  have hscore : ((ps.usable? ps.activeIdx).map (pathScore · false)) = some (65 / 100) := by decide +kernel
  obtain ⟨p, hp, hp65⟩ := Option.map_eq_some_iff.mp hscore
  rw [← hp65]
  exact switching.2 _ slowDirect rfl 4 (secs 3) false rfl ps rfl p hp (by rw [hp65]; norm_num) 1 hswitch (by
    rw [hidle]; decide)

end PathSet

end ConnectUnit
