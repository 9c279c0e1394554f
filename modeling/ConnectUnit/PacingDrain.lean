import ConnectUnit.PacingBudget
import ConnectUnit.PacingWork

/-!
# Drain episodes

The drain state machine (APD) goes from its cooldown to alert, from alert to drain and back to the cooldown. Only
ticks move it; the rest of a tick reads its decision.
-/

open Machine (run)

namespace ConnectUnit.Pacing

variable {st : ApdState} {t now deadline : Instant} {r : Reading} {clock : Nat → Instant} {answers : Answers}
variable {call : Call} {i j : Nat} {times : List Instant}
variable {suppressCc : Bool} {baseBurst rampCeiling drainBurst : Nat} {c : TickClock}

/-! ## One step of the state machine -/

namespace ApdState

def Stands (st : ApdState) (phase : ApdPhase) (enteredAt cooldownUntil : Option Instant) (spin : Bool) : Prop :=
  st.phase = phase ∧ st.drainEnteredAt = enteredAt ∧ st.cooldownUntil = cooldownUntil ∧ st.lastPureSpin = spin

def exhausted (st : ApdState) (now : Instant) : Bool :=
  decide (0 < st.cfg.spinloopBudgetMs) && st.drainEnteredAt.any fun t => millis st.cfg.spinloopBudgetMs ≤ now - t

inductive Transition (st : ApdState) (r : Reading) (st' : ApdState) : Prop
  | wait (h : st.phase = .cooldown) (early : st.cooldownUntil.all (· ≤ r.now) = false)
      (h' : st'.Stands .cooldown st.drainEnteredAt st.cooldownUntil false)
  | wake (h : st.phase = .cooldown) (late : st.cooldownUntil.all (· ≤ r.now) = true)
      (h' : st'.Stands .alert st.drainEnteredAt none false)
  | watch (h : st.phase = .alert) (h' : st'.Stands .alert st.drainEnteredAt st.cooldownUntil false)
  | enter (h : st.phase = .alert) (h' : st'.Stands .drain (some r.now) st.cooldownUntil true)
  | drain (h : st.phase = .drain) (inBudget : st.exhausted r.drainNow = false)
      (h' : st'.Stands .drain st.drainEnteredAt st.cooldownUntil true)
  | leave (h : st.phase = .drain) (h' : st'.Stands .cooldown none (some (r.now + millis st.cfg.cooldownMs)) false)

section
variable (st : ApdState)

theorem moveRamp_fields (suppressCc : Bool) (fillRatio : ℚ) (baseBurst rampCeiling : Nat) :
    let st' := st.moveRamp suppressCc fillRatio baseBurst rampCeiling
    st'.cfg = st.cfg ∧ st'.phase = st.phase ∧ st'.drainEnteredAt = st.drainEnteredAt ∧
      st'.cooldownUntil = st.cooldownUntil ∧ st'.confirmCounter = st.confirmCounter := by
  unfold moveRamp
  dsimp only
  split
  · exact ⟨rfl, rfl, rfl, rfl, rfl⟩
  exact ⟨rfl, rfl, rfl, rfl, rfl⟩

theorem transition_stepCooldown (h : st.phase = .cooldown)
    : Transition st r (st.stepCooldown r suppressCc baseBurst rampCeiling).1 ∧
    (st.stepCooldown r suppressCc baseBurst rampCeiling).1.cfg = st.cfg := by
  unfold stepCooldown
  dsimp only
  split
  · rename_i hlate
    obtain ⟨hcfg, hphase, hentered, huntil, _⟩ := moveRamp_fields
      { st with phase := .alert, confirmCounter := 0, cooldownUntil := none } suppressCc r.fillRatio baseBurst
        rampCeiling
    exact ⟨.wake h hlate ⟨hphase, hentered, huntil, rfl⟩, hcfg⟩
  rename_i hearly
  obtain ⟨hcfg, hphase, hentered, huntil, _⟩ := st.moveRamp_fields suppressCc r.fillRatio baseBurst rampCeiling
  exact ⟨.wait h (Bool.not_eq_true _ ▸ hearly) ⟨hphase.trans h, hentered, huntil, rfl⟩, hcfg⟩

theorem transition_stepAlert (h : st.phase = .alert) : Transition st r
    (st.stepAlert r suppressCc baseBurst rampCeiling drainBurst).1 ∧
    (st.stepAlert r suppressCc baseBurst rampCeiling drainBurst).1.cfg = st.cfg := by
  obtain ⟨hcfg, hphase, hentered, huntil, _⟩ := st.moveRamp_fields suppressCc r.fillRatio baseBurst rampCeiling
  unfold stepAlert
  dsimp only
  generalize st.moveRamp suppressCc r.fillRatio baseBurst rampCeiling = moved at hcfg hphase hentered huntil
  -- confirming an alarm only counts
  have hcounted : (if moved.cfg.confirmTicks = 0 then moved else
      { moved with confirmCounter := moved.confirmCounter + 1 }).cfg = st.cfg ∧
      (if moved.cfg.confirmTicks = 0 then moved else
        { moved with confirmCounter := moved.confirmCounter + 1 }).Stands .alert st.drainEnteredAt st.cooldownUntil
          moved.lastPureSpin := by
    split
    · exact ⟨hcfg, hphase.trans h, hentered, huntil, rfl⟩
    exact ⟨hcfg, hphase.trans h, hentered, huntil, rfl⟩
  split
  · generalize (if moved.cfg.confirmTicks = 0 then moved else
      { moved with confirmCounter := moved.confirmCounter + 1 }) = counted at hcounted
    obtain ⟨hccfg, hcphase, hcentered, hcuntil, _⟩ := hcounted
    split
    · exact ⟨.enter h ⟨rfl, rfl, hcuntil, rfl⟩, hccfg⟩
    exact ⟨.watch h ⟨hcphase, hcentered, hcuntil, rfl⟩, hccfg⟩
  split
  · exact ⟨.watch h ⟨hphase.trans h, hentered, huntil, rfl⟩, hcfg⟩
  exact ⟨.watch h ⟨hphase.trans h, hentered, huntil, rfl⟩, hcfg⟩

theorem transition_stepDrain (h : st.phase = .drain) :
    Transition st r (st.stepDrain r suppressCc baseBurst drainBurst).1 ∧
    (st.stepDrain r suppressCc baseBurst drainBurst).1.cfg = st.cfg := by
  unfold stepDrain
  dsimp only
  split
  · exact ⟨.leave h ⟨rfl, rfl, rfl, rfl⟩, rfl⟩
  rename_i hstay
  simp only [Bool.or_eq_true, not_or] at hstay
  exact ⟨.drain h (Bool.not_eq_true _ ▸ hstay.1.2) ⟨h, rfl, rfl, rfl⟩, rfl⟩

theorem transition_step (r : Reading) (baseBurst : Nat) :
    Transition st r (st.step r baseBurst).1 ∧ (st.step r baseBurst).1.cfg = st.cfg := by
  unfold step
  dsimp only
  cases h : st.phase with
  | cooldown => exact st.transition_stepCooldown h
  | alert => exact st.transition_stepAlert h
  | drain => exact st.transition_stepDrain h

end

theorem exhausted_of_late (hbudget : 0 < st.cfg.spinloopBudgetMs) (hentered : st.drainEnteredAt = some t)
    (hlate : t + millis st.cfg.spinloopBudgetMs ≤ now) : st.exhausted now = true := by
  unfold exhausted
  rw [hentered, Option.any_some, Bool.and_eq_true]
  exact ⟨decide_eq_true hbudget, decide_eq_true (Nat.le_sub_of_add_le' hlate)⟩

def Episodic (st : ApdState) : Prop := st.phase = .drain ↔ st.drainEnteredAt.isSome = true

section
variable {st st' : ApdState}

theorem Stands.episodic {phase : ApdPhase} {enteredAt cooldownUntil : Option Instant} {spin : Bool}
    (h : st.Stands phase enteredAt cooldownUntil spin) (he : phase = .drain ↔ enteredAt.isSome = true)
    (hs : spin = true ↔ phase = .drain) : st.Episodic ∧ (st.lastPureSpin = true ↔ st.phase = .drain) := by
  obtain ⟨hphase, hentered, _, hspin⟩ := h
  unfold Episodic
  rw [hphase, hentered, hspin]
  exact ⟨he, hs⟩

section
variable (h : Transition st r st')
include h

theorem Transition.episodic (he : st.Episodic) : st'.Episodic ∧ (st'.lastPureSpin = true ↔ st'.phase = .drain) := by
  have hout {phase : ApdPhase} (hp : st.phase ≠ .drain) (hp' : phase ≠ .drain) :
      phase = .drain ↔ st.drainEnteredAt.isSome = true := iff_of_false hp' fun hentered => hp (he.mpr hentered)
  cases h with
  | wait h _ h' => exact h'.episodic (hout (by simp [h]) (by decide)) (by decide)
  | wake h _ h' => exact h'.episodic (hout (by simp [h]) (by decide)) (by decide)
  | watch h h' => exact h'.episodic (hout (by simp [h]) (by decide)) (by decide)
  | enter _ h' => exact h'.episodic (by simp) (by decide)
  | drain h _ h' => exact h'.episodic (iff_of_true rfl (he.mp h)) (by decide)
  | leave _ h' => exact h'.episodic (by simp) (by decide)

theorem Transition.of_cooldown (hp : st.phase = .cooldown) :
    st'.Stands .cooldown st.drainEnteredAt st.cooldownUntil false ∨ st.cooldownUntil.all (· ≤ r.now) = true := by
  cases h with
  | wait _ _ h' => exact .inl h'
  | wake _ late _ => exact .inr late
  | watch h => exact absurd (h.symm.trans hp) (by decide)
  | enter h => exact absurd (h.symm.trans hp) (by decide)
  | drain h => exact absurd (h.symm.trans hp) (by decide)
  | leave h => exact absurd (h.symm.trans hp) (by decide)

theorem Transition.of_drain (hp : st.phase = .drain) :
    (st.exhausted r.drainNow = false ∧ st'.Stands .drain st.drainEnteredAt st.cooldownUntil true) ∨ st'.Stands
    .cooldown none (some (r.now + millis st.cfg.cooldownMs)) false := by
  cases h with
  | wait h => exact absurd (h.symm.trans hp) (by decide)
  | wake h => exact absurd (h.symm.trans hp) (by decide)
  | watch h => exact absurd (h.symm.trans hp) (by decide)
  | enter h => exact absurd (h.symm.trans hp) (by decide)
  | drain _ inBudget h' => exact .inl ⟨inBudget, h'⟩
  | leave _ h' => exact .inr h'

theorem Transition.to_drain (hp : st.phase ≠ .drain)
    (hp' : st'.phase = .drain) : st.phase = .alert ∧ st'.drainEnteredAt = some r.now := by
  cases h with
  | wait _ _ h' => exact absurd (h'.1.symm.trans hp') (by decide)
  | wake _ _ h' => exact absurd (h'.1.symm.trans hp') (by decide)
  | watch _ h' => exact absurd (h'.1.symm.trans hp') (by decide)
  | enter h h' => exact ⟨h, h'.2.1⟩
  | drain h => exact absurd h hp
  | leave h => exact absurd h hp

end

end

end ApdState

namespace PacingEngine

/-! ## What leaves the state machine alone -/

structure SameApd (e e' : PacingEngine) : Prop where
  apd : e'.apd = e.apd
  config : e'.config = e.config

section
variable {e e' e'' : PacingEngine}

protected theorem SameApd.refl (e : PacingEngine) : SameApd e e := ⟨rfl, rfl⟩

protected theorem SameApd.trans (h : SameApd e e') (h' : SameApd e' e'') : SameApd e e'' :=
  ⟨h'.apd.trans h.apd, h'.config.trans h.config⟩

theorem Glides.sameApd (h : Glides e e') : SameApd e e' := by
  induction h with
  | refl => exact .refl e
  | tail _ h ih => cases h <;> exact ih.trans ⟨rfl, rfl⟩

theorem Take.sameApd {item : NextPacket} (h : Take now e item e') : SameApd e e' := by
  cases h <;> exact ⟨rfl, rfl⟩

theorem Selects.sameApd {r : PacingEngine × Option NextPacket} (h : Selects now e r) : SameApd e r.1 := by
  unfold Selects Search.Outcome at h
  split at h
  · obtain ⟨e₁, hglide, htake⟩ := h
    exact (Glides.sameApd hglide).trans htake.sameApd
  exact Glides.sameApd h

theorem sameApd_shedTurns (turns : List Nat) (e : PacingEngine)
    (dropped : List Packet) : SameApd e (shedTurns now deadline clock turns e dropped).1 := by
  induction turns generalizing e dropped with
  | nil => exact .refl e
  | cons i is ih =>
    have hshed : SameApd e (e.advanceCursor.shedAt e.cursorIndex now).1 := by
      unfold shedAt
      repeat' split
      all_goals exact ⟨rfl, rfl⟩
    unfold shedTurns
    split
    · exact .refl e
    exact hshed.trans (ih _ _)

theorem sameApd_trySendQueuedPacket (e : PacingEngine) (q : QueuedPacket) (retransmit : Bool)
    (rest : List QueuedPacket) (outcome : SendOutcome) (sent : Nat) : SameApd e
    ((e.withRest retransmit rest).trySendQueuedPacket q retransmit outcome sent).1 := by
  cases retransmit <;> cases outcome <;> exact ⟨rfl, rfl⟩

theorem sameApd_trySendNextPacket (e : PacingEngine) (item : NextPacket) (outcome : SendOutcome) (sent : Nat) :
    SameApd e (e.trySendNextPacket item outcome sent).1 := by
  cases item <;> cases outcome <;> exact ⟨rfl, rfl⟩

theorem tickRule_sameApd : TickRule fun t => SameApd e t.engine where
  reserved t retransmit q rest outcome n h _ _ := h.trans (sameApd_trySendQueuedPacket ..)
  idle t freezeDrr c h _ := h.trans (selects_popNextApd t.engine freezeDrr c).sameApd
  burst t freezeDrr c item outcome n h _ _ :=
    (h.trans (selects_popNextApd t.engine freezeDrr c).sameApd).trans (sameApd_trySendNextPacket ..)

theorem sameApd_refillBudget (e : PacingEngine) (now : Instant) : SameApd e (e.refillBudget now) := by
  unfold refillBudget refreshDrrRttRef
  dsimp only
  repeat' split
  all_goals exact ⟨rfl, rfl⟩

theorem sameApd_tickWith (e : PacingEngine) (c : TickClock) (answers : Answers) :
    SameApd ((e.refillBudget c.start).apdStep c.start c.drain).1 (e.tickWith c answers).engine := by
  have hshed : SameApd ((e.refillBudget c.start).apdStep c.start c.drain).1
      (((e.refillBudget c.start).apdStep c.start c.drain).1.shedStaleBulkRr c.start
        (c.start + micros (max e.config.maxTickWorkUs 100)) c.shed).1 := by
    unfold shedStaleBulkRr
    split
    · exact .refl _
    exact sameApd_shedTurns _ _ _
  exact tickRule_sameApd.tickWith hshed

/-- How many packets the burst of a tick may have. -/
def effectiveBurst (e : PacingEngine) (c : TickClock) : Nat :=
  ((e.refillBudget c.start).apdStep c.start c.drain).2.effectiveBurst

theorem apd_tickWith (hon : e.apd.cfg.enabled = true) (c : TickClock) (answers : Answers) : ∃ r : ApdState.Reading,
    r.now = c.start ∧ r.drainNow = c.drain ∧ (e.tickWith c answers).engine.apd =
    (e.apd.step r e.config.baseMaxBurst).1 ∧ e.effectiveBurst c =
    (e.apd.step r e.config.baseMaxBurst).2.effectiveBurst := by
  have hrefill := sameApd_refillBudget e c.start
  have htick := (sameApd_tickWith e c answers).apd
  unfold effectiveBurst
  unfold apdStep at htick ⊢
  rw [hrefill.apd, if_pos hon, hrefill.config] at htick ⊢
  exact ⟨_, rfl, rfl, htick, rfl⟩

theorem apd_tickWith_off (hoff : ¬ e.apd.cfg.enabled = true) (c : TickClock) (answers : Answers) :
    (e.tickWith c answers).engine.apd = e.apd ∧ e.effectiveBurst c = e.config.baseMaxBurst := by
  have hrefill := sameApd_refillBudget e c.start
  have htick := (sameApd_tickWith e c answers).apd
  unfold effectiveBurst
  unfold apdStep at htick ⊢
  rw [hrefill.apd, if_neg hoff] at htick ⊢
  exact ⟨htick.trans hrefill.apd, congrArg PacingConfig.baseMaxBurst hrefill.config⟩

theorem config_tickWith : (e.tickWith c answers).engine.config = e.config := by
  refine (sameApd_tickWith e c answers).config.trans ?_
  unfold apdStep
  split
  · exact (sameApd_refillBudget e c.start).config
  exact (sameApd_refillBudget e c.start).config

/-! ## The calls -/

inductive Drives (st : ApdState) : Call → ApdState → Prop
  | idle {call : Call} (h : ∀ c answers, call ≠ .op (.tick c answers)) : Drives st call st
  | off (c : TickClock) (answers : Answers) (h : ¬ st.cfg.enabled = true) : Drives st (.op (.tick c answers)) st
  | reset (now : Instant) {st' : ApdState} (hcfg : st'.cfg = st.cfg) (h : st'.Stands .cooldown none none false) :
      Drives st (.resetSessionRuntime now) st'
  | tick (c : TickClock) (answers : Answers) {r : ApdState.Reading} {st' : ApdState} (hcfg : st'.cfg = st.cfg)
      (hnow : r.now = c.start) (hdrain : r.drainNow = c.drain) (h : st.Transition r st') :
      Drives st (.op (.tick c answers)) st'

theorem serve_idle (e : PacingEngine) (hset : ∀ cfg now, call ≠ .op (.setConfig cfg now))
    (htick : ∀ c answers, call ≠ .op (.tick c answers)) (hreset : ∀ now, call ≠ .resetSessionRuntime now) :
    (e.serve call).1.apd = e.apd ∧ (e.serve call).1.config.baseMaxBurst = e.config.baseMaxBurst := by
  cases call with
  | op op =>
    cases op with
    | enqueuePeer pkt dest rttMs qdMs now =>
      unfold serve step enqueuePeerWithHints
      dsimp only
      split <;> exact ⟨rfl, rfl⟩
    | enqueueBatch dest pkts rttMs qdMs now =>
      unfold serve step tryEnqueuePeerBatch
      dsimp only
      repeat' split
      all_goals exact ⟨rfl, rfl⟩
    | enqueueControl pkt dest now => exact ⟨rfl, rfl⟩
    | enqueueRetransmit pkt dest now => exact ⟨rfl, rfl⟩
    | removePeer dest =>
      unfold serve step removePeer
      dsimp only
      split <;> exact ⟨rfl, rfl⟩
    | setConfig cfg now => exact absurd rfl (hset cfg now)
    | resetObservabilityCounters => exact ⟨rfl, rfl⟩
    | onCcSample dest qdMs lossEwma => exact ⟨rfl, rfl⟩
    | tick c answers => exact absurd rfl (htick c answers)
  | resetSessionRuntime now => exact absurd rfl (hreset now)
  | setBackgroundCcConfig cc => exact ⟨rfl, rfl⟩
  | removeCcPeer dest => exact ⟨rfl, rfl⟩

theorem drives_serve (hcall : ∀ cfg now, call ≠ .op (.setConfig cfg now)) :
    Drives e.apd call (e.serve call).1.apd := by
  by_cases htick : ∃ c answers, call = .op (.tick c answers)
  · obtain ⟨c, answers, rfl⟩ := htick
    by_cases hon : e.apd.cfg.enabled = true
    · obtain ⟨r, hnow, hdrain, hstep, _⟩ := apd_tickWith hon c answers
      obtain ⟨htransition, hcfg⟩ := e.apd.transition_step r e.config.baseMaxBurst
      rw [← hstep] at htransition hcfg
      exact .tick c answers hcfg hnow hdrain htransition
    have hsame : (e.serve (.op (.tick c answers))).1.apd = e.apd := (apd_tickWith_off hon c answers).1
    rw [hsame]
    exact .off c answers hon
  by_cases hreset : ∃ now, call = .resetSessionRuntime now
  · obtain ⟨now, rfl⟩ := hreset
    exact .reset now rfl ⟨rfl, rfl, rfl, rfl⟩
  have htick' : ∀ c answers, call ≠ .op (.tick c answers) := fun c answers h => htick ⟨c, answers, h⟩
  rw [(serve_idle e hcall htick' fun now h => hreset ⟨now, h⟩).1]
  exact .idle htick'

theorem Drives.cfg {st' : ApdState} (h : Drives st call st') : st'.cfg = st.cfg := by
  cases h with
  | idle => rfl
  | off => rfl
  | reset _ hcfg => exact hcfg
  | tick _ _ hcfg => exact hcfg

end

/-! ## Episodes of a run -/

theorem episodic_serve {e : PacingEngine} (h : e.apd.Episodic) : (e.serve call).1.apd.Episodic := by
  by_cases hset : ∃ cfg now, call = .op (.setConfig cfg now)
  · obtain ⟨cfg, now, rfl⟩ := hset
    show (e.setConfig cfg now).apd.Episodic
    unfold setConfig resetApdRuntimeState
    dsimp only
    split
    · exact iff_of_false nofun nofun
    exact h
  have hdrives : Drives e.apd call (e.serve call).1.apd := drives_serve fun cfg now hc => hset ⟨cfg, now, hc⟩
  generalize (e.serve call).1.apd = st' at hdrives
  cases hdrives with
  | idle => exact h
  | off => exact h
  | reset _ _ hst => exact (hst.episodic (by simp) (by decide)).1
  | tick _ _ _ _ _ ht => exact (ht.episodic h).1

/-- The call at this place of the list is a tick at this time. -/
def TickAt (calls : List Call) (i : Nat) (now : Instant) : Prop :=
  ∃ c answers, calls[i]? = some (.op (.tick c answers)) ∧ c.start = now

/-- The settings stay, a tick reads the clock once and the clock goes forward. -/
structure Orderly (calls : List Call) : Prop where
  keeps : ∀ call ∈ calls, ∀ cfg now, call ≠ .op (.setConfig cfg now)
  oneReading : ∀ c answers, .op (.tick c answers) ∈ calls → c.drain = c.start
  forward : ∀ i j t t', i ≤ j → TickAt calls i t → TickAt calls j t' → t ≤ t'

section
variable (e : PacingEngine) (calls : List Call)

def apdAt (i : Nat) : ApdState := (Machine.stateAt serve e calls i).apd

/-- The call at this place starts an episode. -/
def Enters (i : Nat) : Prop := (e.apdAt calls i).phase ≠ .drain ∧ (e.apdAt calls (i + 1)).phase = .drain

/-- The call at this place ends an episode. -/
def Leaves (i : Nat) : Prop := (e.apdAt calls i).phase = .drain ∧ (e.apdAt calls (i + 1)).phase ≠ .drain

end

section
variable {e : PacingEngine} {calls : List Call} (ho : Orderly calls)
include ho

theorem drives_apdAt (h : calls[i]? = some call) : Drives (e.apdAt calls i) call (e.apdAt calls (i + 1)) := by
  unfold apdAt
  rw [Machine.stateAt_succ serve e calls h]
  exact drives_serve (ho.keeps call (List.mem_of_getElem? h))

theorem cfg_apdAt : (e.apdAt calls i).cfg = e.apd.cfg := by
  induction i with
  | zero => rfl
  | succ i ih =>
    cases h : calls[i]? with
    | none =>
      unfold apdAt at ih ⊢
      rw [Machine.stateAt_succ_of_none serve e calls h]
      exact ih
    | some call => exact (drives_apdAt ho h).cfg.trans ih

variable (hon : e.apd.cfg.enabled = true)
include hon

theorem transition_apdAt (h : TickAt calls i now) : ∃ r : ApdState.Reading, r.now = now ∧
    r.drainNow = now ∧ (e.apdAt calls i).Transition r (e.apdAt calls (i + 1)) := by
  obtain ⟨c, answers, hi, rfl⟩ := h
  have hdrives := drives_apdAt (e := e) ho hi
  generalize hst : e.apdAt calls (i + 1) = st' at hdrives
  cases hdrives with
  | idle h => exact absurd rfl (h c answers)
  | off _ _ hoff => exact absurd (by rw [cfg_apdAt ho]; exact hon) hoff
  | tick _ _ _ hnow hdrain ht =>
    exact ⟨_, hnow, hdrain.trans (ho.oneReading c answers (List.mem_of_getElem? hi)), ht⟩

theorem apdAt_succ (i : Nat) : e.apdAt calls (i + 1) = e.apdAt calls i ∨
    (∃ now, calls[i]? = some (.resetSessionRuntime now) ∧ (e.apdAt calls (i + 1)).Stands .cooldown none none false) ∨
    ∃ now r, TickAt calls i now ∧ r.now = now ∧ r.drainNow = now ∧ (e.apdAt calls i).Transition r
    (e.apdAt calls (i + 1)) := by
  cases h : calls[i]? with
  | none =>
    left
    unfold apdAt
    rw [Machine.stateAt_succ_of_none serve e calls h]
  | some call =>
    have hdrives := drives_apdAt (e := e) ho h
    generalize hst : e.apdAt calls (i + 1) = st' at hdrives
    cases hdrives with
    | idle => exact .inl rfl
    | off => exact .inl rfl
    | reset now _ hreset => exact .inr (.inl ⟨now, rfl, hreset⟩)
    | tick c answers =>
      obtain ⟨r, hnow, hdrain, ht⟩ := transition_apdAt ho hon ⟨c, answers, h, rfl⟩
      exact .inr (.inr ⟨c.start, r, ⟨c, answers, h, rfl⟩, hnow, hdrain, hst ▸ ht⟩)

theorem Enters.from_alert (h : Enters e calls i) : (e.apdAt calls i).phase = .alert ∧
    ∃ t, TickAt calls i t ∧ (e.apdAt calls (i + 1)).drainEnteredAt = some t := by
  obtain ⟨hout, hin⟩ := h
  rcases apdAt_succ (e := e) ho hon i with hsame | ⟨now, _, hreset⟩ | ⟨now, r, htick, rfl, _, ht⟩
  · exact absurd (hsame ▸ hin) hout
  · exact absurd (hreset.1.symm.trans hin) (by decide)
  obtain ⟨halert, hentered⟩ := ht.to_drain hout hin
  exact ⟨halert, r.now, htick, hentered⟩

theorem episode_kept (hi : (e.apdAt calls (i + 1)).phase = .drain)
    (ht : (e.apdAt calls (i + 1)).drainEnteredAt = some t) (hij : i < j)
    (hstay : ∀ k, i < k → k < j → ¬ Leaves e calls k) :
    (e.apdAt calls j).phase = .drain ∧ (e.apdAt calls j).drainEnteredAt = some t := by
  induction j, Nat.succ_le_of_lt hij using Nat.le_induction with
  | base => exact ⟨hi, ht⟩
  | succ j hj ih =>
    obtain ⟨hphase, hentered⟩ := ih hj fun k hk hkj => hstay k hk (Nat.lt_succ_of_lt hkj)
    have hphase' : (e.apdAt calls (j + 1)).phase = .drain := by
      by_contra hout
      exact hstay j hj (Nat.lt_succ_self j) ⟨hphase, hout⟩
    refine ⟨hphase', ?_⟩
    rcases apdAt_succ (e := e) ho hon j with hsame | ⟨now, _, hreset⟩ | ⟨now, r, _, _, _, ht⟩
    · rw [hsame]
      exact hentered
    · exact absurd (hreset.1.symm.trans hphase') (by decide)
    rcases ht.of_drain hphase with ⟨_, h'⟩ | h'
    · exact h'.2.1.trans hentered
    exact absurd (h'.1.symm.trans hphase') (by decide)

theorem leaves_of_exhausted (hbudget : 0 < e.apd.cfg.spinloopBudgetMs)
    (hphase : (e.apdAt calls j).phase = .drain) (hentered : (e.apdAt calls j).drainEnteredAt = some t)
    (hj : TickAt calls j now) (hlate : t + millis e.apd.cfg.spinloopBudgetMs ≤ now) : Leaves e calls j := by
  refine ⟨hphase, ?_⟩
  obtain ⟨r, _, hdrain, ht⟩ := transition_apdAt ho hon hj
  rcases ht.of_drain hphase with ⟨hin, _⟩ | h'
  · rw [← cfg_apdAt ho] at hbudget hlate
    rw [hdrain, ApdState.exhausted_of_late hbudget hentered hlate] at hin
    cases hin
  · exact fun hdrain => absurd (h'.1.symm.trans hdrain) (by decide)

theorem cooled_down (hi : (e.apdAt calls (i + 1)).phase = .cooldown)
    (ht : (e.apdAt calls (i + 1)).cooldownUntil = some t) (hij : i < j)
    (hreset : ∀ k now, i < k → k < j → calls[k]? ≠ some (.resetSessionRuntime now)) :
    ((e.apdAt calls j).phase = .cooldown ∧ (e.apdAt calls j).cooldownUntil = some t) ∨ ∃ k now, k < j ∧ TickAt calls k
    now ∧ t ≤ now := by
  induction j, Nat.succ_le_of_lt hij using Nat.le_induction with
  | base => exact .inl ⟨hi, ht⟩
  | succ j hj ih =>
    have hbefore := ih hj fun k now hk hkj => hreset k now hk (Nat.lt_succ_of_lt hkj)
    rcases hbefore with ⟨hphase, huntil⟩ | ⟨k, now, hk, hwoke⟩
    · rcases apdAt_succ (e := e) ho hon j with hsame | ⟨now, hcall, _⟩ | ⟨now, r, htick, rfl, _, ht⟩
      · rw [hsame]
        exact .inl ⟨hphase, huntil⟩
      · exact absurd hcall (hreset j now hj (Nat.lt_succ_self j))
      · rcases ht.of_cooldown hphase with h' | hlate
        · exact .inl ⟨h'.1, h'.2.2.1.trans huntil⟩
        · rw [huntil] at hlate
          exact .inr ⟨j, r.now, Nat.lt_succ_self j, htick, of_decide_eq_true hlate⟩
    · exact .inr ⟨k, now, Nat.lt_succ_of_lt hk, hwoke⟩

theorem spaced (hij : i < j) (hi : Leaves e calls i) (hj : Enters e calls j)
    (hreset : ∀ k now, i ≤ k → k < j → calls[k]? ≠ some (.resetSessionRuntime now)) :
    ∃ t t', TickAt calls i t ∧ TickAt calls j t' ∧ t + millis e.apd.cfg.cooldownMs ≤ t' := by
  obtain ⟨halert, t', hjtick, _⟩ := hj.from_alert ho hon
  rcases apdAt_succ (e := e) ho hon i with hsame | ⟨now, hcall, _⟩ | ⟨now, r, htick, rfl, _, ht⟩
  · exact absurd (hsame ▸ hi.1) hi.2
  · exact absurd hcall (hreset i now (Nat.le_refl i) hij)
  refine ⟨r.now, t', htick, hjtick, ?_⟩
  rcases ht.of_drain hi.1 with ⟨_, h'⟩ | ⟨hphase, _, huntil, _⟩
  · exact absurd h'.1 hi.2
  rw [cfg_apdAt ho] at huntil
  rcases cooled_down ho hon hphase huntil hij fun k now hk => hreset k now (Nat.le_of_lt hk) with
    ⟨hcool, _⟩ | ⟨k, now, hk, hwoke, hlate⟩
  · exact absurd (hcool.symm.trans halert) (by decide)
  exact Nat.le_trans hlate (ho.forward k j now t' (Nat.le_of_lt hk) hwoke hjtick)

end

theorem episodic_new {start : Instant} : (PacingEngine.new start).apd.Episodic := iff_of_false nofun nofun

/-- While the state machine is on and its settings stay, the clock spins after a tick exactly in an episode, which
starts from alert, ends with its budget of time at the latest and starts again only after the cooldown, unless the
session was reset in between. -/
theorem drain_bounded_and_spaced (start : Instant) (before calls : List Call)
    (hon : (run serve (.new start) before).apd.cfg.enabled = true) (ho : Orderly calls) :
    let e := run serve (.new start) before
    (∀ i now, TickAt calls i now →
      ((e.apdAt calls (i + 1)).lastPureSpin = true ↔ (e.apdAt calls (i + 1)).phase = .drain) ∧
        ((e.apdAt calls (i + 1)).phase = .drain ↔ (e.apdAt calls (i + 1)).drainEnteredAt.isSome = true)) ∧
      (∀ i, Enters e calls i → (e.apdAt calls i).phase = .alert ∧
        ∃ t, TickAt calls i t ∧ (e.apdAt calls (i + 1)).drainEnteredAt = some t) ∧
      (0 < e.apd.cfg.spinloopBudgetMs → ∀ i j t now, i < j → Enters e calls i → TickAt calls i t →
        TickAt calls j now →
        t + millis e.apd.cfg.spinloopBudgetMs ≤ now → ∃ k, i < k ∧ k ≤ j ∧ Leaves e calls k) ∧
      ∀ i j, i < j → Leaves e calls i → Enters e calls j →
        (∀ k now, i ≤ k → k < j → calls[k]? ≠ some (.resetSessionRuntime now)) →
        ∃ t t', TickAt calls i t ∧ TickAt calls j t' ∧ t + millis e.apd.cfg.cooldownMs ≤ t' := by
  dsimp only
  generalize he : run serve (.new start) before = e at hon
  have hstart : e.apd.Episodic := by
    rw [← he]
    exact Machine.run_invariant (P := fun s : PacingEngine => s.apd.Episodic) episodic_new
      (fun s call hs => episodic_serve hs)
  have hepisodic (i : Nat) : (e.apdAt calls i).Episodic :=
    Machine.invariant_all (P := fun s : PacingEngine => s.apd.Episodic) hstart (fun s call hs => episodic_serve hs) i
  refine ⟨fun i now hi => ?_, fun i hi => hi.from_alert ho hon, ?_, fun i j hij hi hj => spaced ho hon hij hi hj⟩
  · obtain ⟨r, _, _, ht⟩ := transition_apdAt ho hon hi
    obtain ⟨hentered, hspin⟩ := ht.episodic (hepisodic i)
    exact ⟨hspin, hentered⟩
  intro hbudget i j t now hij hi hit hj hlate
  by_contra hnone
  obtain ⟨_, t', hit', hentered⟩ := hi.from_alert ho hon
  have htime : t' = t := Nat.le_antisymm (ho.forward i i t' t (Nat.le_refl i) hit' hit)
    (ho.forward i i t t' (Nat.le_refl i) hit hit')
  obtain ⟨hphase, hstill⟩ := episode_kept ho hon hi.2 (htime ▸ hentered) hij fun k hk hkj hleave =>
    hnone ⟨k, hk, Nat.le_of_lt hkj, hleave⟩
  exact hnone ⟨j, hij, Nat.le_refl j, leaves_of_exhausted ho hon hbudget hphase hstill hj hlate⟩

def blockedTicks (times : List Instant) : List Call :=
  times.map fun now => .op (.tick (.at now) fun _ => .wouldBlock)

theorem getElem?_of_tickAt (h : TickAt (blockedTicks times) i now) : times[i]? = some now := by
  obtain ⟨c, answers, hi, rfl⟩ := h
  rw [blockedTicks, List.getElem?_map] at hi
  obtain ⟨now, hnow, hcall⟩ := Option.map_eq_some_iff.mp hi
  cases hcall
  exact hnow

theorem orderly_blockedTicks (h : times.Pairwise (· ≤ ·)) : Orderly (blockedTicks times) := by
  refine ⟨fun call hcall cfg now hset => ?_, fun c answers hcall => ?_, fun i j t t' hij hi hj => ?_⟩
  · obtain ⟨now', _, rfl⟩ := List.mem_map.mp hcall
    cases hset
  · obtain ⟨now, _, hc⟩ := List.mem_map.mp hcall
    cases hc
    rfl
  obtain ⟨hi', rfl⟩ := List.getElem?_eq_some_iff.mp (getElem?_of_tickAt hi)
  obtain ⟨hj', rfl⟩ := List.getElem?_eq_some_iff.mp (getElem?_of_tickAt hj)
  rcases Nat.lt_or_eq_of_le hij with hlt | rfl
  · exact List.pairwise_iff_getElem.mp h i j hi' hj' hlt
  exact Nat.le_refl _

/-- One control packet waits and each tick fails to send it. -/
def stuckControl : List Call := [.op (.enqueueControl [1] longPeer 0)]

def stuckTicks : List Call := blockedTicks (([20, 21, 22, 23, 31, 33, 34, 35, 36] : List Nat).map millis)

/-- The episode that starts at 23 ms ends at 31 ms, and the next one starts at 36 ms. -/
theorem stuckTicks_drained : Enters (run serve (.new 0) stuckControl) stuckTicks 3 ∧ Enters
    (run serve (.new 0) stuckControl) stuckTicks 8 ∧ Leaves (run serve (.new 0) stuckControl)
    stuckTicks 4 ∧ ∃ t t', TickAt stuckTicks 4 t ∧ TickAt stuckTicks 8 t' ∧ t + millis 2 ≤ t' := by
  have hentered : Enters (run serve (.new 0) stuckControl) stuckTicks 8 := ⟨by decide +kernel, by decide +kernel⟩
  have hleft : Leaves (run serve (.new 0) stuckControl) stuckTicks 4 := ⟨by decide +kernel, by decide +kernel⟩
  obtain ⟨_, _, _, hspaced⟩ :=
    drain_bounded_and_spaced 0 stuckControl stuckTicks rfl (orderly_blockedTicks (by decide))
  refine ⟨⟨by decide +kernel, by decide +kernel⟩, hentered, hleft, hspaced 4 8 (by decide) hleft hentered ?_⟩
  intro k now _ _ hreset
  have hmem := List.mem_of_getElem? hreset
  obtain ⟨_, _, hcall⟩ := List.mem_map.mp hmem
  cases hcall

end PacingEngine

end ConnectUnit.Pacing
