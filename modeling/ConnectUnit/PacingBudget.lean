import Mathlib.Tactic.Linarith
import ConnectUnit.Lib.Machine
import ConnectUnit.PacingSelect

/-!
# The budget of the pacing engine

The budget is a token bucket: a tick fills it up to the cap, every packet sent takes its cost out of it, and nothing
is sent without room.
-/

open Machine (Each emitAt stateAt stateAt_succ)

namespace ConnectUnit.Pacing.PacingEngine

variable {now deadline : Instant} {clock : Nat → Instant} {e : PacingEngine} {p : Packet} {answers : Answers}
variable {c : TickClock} {op : Op} {i j : Nat}
variable {l l' : List Packet} {ops : List Op}

/-! ## What leaves the budget alone -/

structure SameBudget (e e' : PacingEngine) : Prop where
  config : e'.config = e.config
  budget : e'.budget = e.budget
  lastTick : e'.lastTick = e.lastTick

section
variable {e e' e'' : PacingEngine}

protected theorem SameBudget.refl (e : PacingEngine) : SameBudget e e := ⟨rfl, rfl, rfl⟩

protected theorem SameBudget.trans (h : SameBudget e e') (h' : SameBudget e' e'') : SameBudget e e'' :=
  ⟨h'.config.trans h.config, h'.budget.trans h.budget, h'.lastTick.trans h.lastTick⟩

theorem Glides.sameBudget (h : Glides e e') : SameBudget e e' := by
  induction h with
  | refl => exact .refl e
  | tail _ h ih => cases h <;> exact ih.trans ⟨rfl, rfl, rfl⟩

theorem Take.sameBudget {item : NextPacket} (h : Take now e item e') : SameBudget e e' := by
  cases h <;> exact ⟨rfl, rfl, rfl⟩

theorem Selects.sameBudget {r : PacingEngine × Option NextPacket} (h : Selects now e r) : SameBudget e r.1 := by
  unfold Selects Search.Outcome at h
  split at h
  · obtain ⟨e₁, hglide, htake⟩ := h
    exact (Glides.sameBudget hglide).trans htake.sameBudget
  exact Glides.sameBudget h

theorem sameBudget_shedAt (e : PacingEngine) (idx : Nat) (now : Instant) : SameBudget e (e.shedAt idx now).1 := by
  unfold shedAt
  repeat' split
  all_goals exact ⟨rfl, rfl, rfl⟩

theorem sameBudget_shedTurns (turns : List Nat) (e : PacingEngine)
    (dropped : List Packet) : SameBudget e (shedTurns now deadline clock turns e dropped).1 := by
  induction turns generalizing e dropped with
  | nil => exact .refl e
  | cons i is ih =>
    unfold shedTurns
    split
    · exact .refl e
    exact ((Glides.sameBudget (glides_advanceCursor e)).trans (sameBudget_shedAt _ e.cursorIndex now)).trans (ih _ _)

theorem sameBudget_shedStaleBulkRr (e : PacingEngine) (now deadline : Instant) (clock : Nat → Instant) :
    SameBudget e (e.shedStaleBulkRr now deadline clock).1 := by
  unfold shedStaleBulkRr
  split
  · exact .refl e
  exact sameBudget_shedTurns _ e []

theorem sameBudget_apdStep (e : PacingEngine) (now drainNow : Instant) : SameBudget e (e.apdStep now drainNow).1 := by
  unfold apdStep
  split <;> exact ⟨rfl, rfl, rfl⟩

end

/-! ## Sending pays -/

def spent (e : PacingEngine) (sent : List Packet) : ℚ := (sent.map fun p => e.packetCost p.1.length).sum

/-- The length of the longest packet. -/
def longest (sent : List Packet) : Nat := (sent.map fun p => p.1.length).foldr max 0

def overdraft (e : PacingEngine) (len : Nat) : ℚ :=
  match e.config.paceRateMode with
  | .pps => 0
  | .bytes => max 0 ((len : ℚ) - 64)

theorem overdraft_nonneg (e : PacingEngine) (len : Nat) : 0 ≤ e.overdraft len := by
  unfold overdraft
  split
  · exact le_refl _
  exact le_max_left _ _

theorem overdraft_mono (e : PacingEngine) {len len' : Nat} (h : len ≤ len') : e.overdraft len ≤ e.overdraft len' := by
  unfold overdraft
  split
  · exact le_refl _
  have : (len : ℚ) ≤ len' := Nat.cast_le.mpr h
  exact max_le_max le_rfl (by linarith)

@[simp] theorem spent_nil : e.spent [] = 0 := rfl

theorem spent_append : e.spent (l ++ l') = e.spent l + e.spent l' := by
  unfold spent
  rw [List.map_append, List.sum_append]

theorem longest_append : longest (l ++ l') = max (longest l) (longest l') := by
  unfold longest
  induction l with
  | nil => simp
  | cons p l ih => simp only [List.cons_append, List.map_cons, List.foldr_cons, ih, Nat.max_assoc]

theorem overdraft_of_room (h : e.budgetHasRoom = true) (pktLen : Nat) :
    -e.overdraft pktLen ≤ e.budget - e.packetCost pktLen := by
  unfold budgetHasRoom at h
  unfold overdraft packetCost
  cases hmode : e.config.paceRateMode with
  | pps =>
    rw [hmode] at h
    have := of_decide_eq_true h
    dsimp only
    linarith
  | bytes =>
    rw [hmode] at h
    have := of_decide_eq_true h
    have := le_max_right 0 ((pktLen : ℚ) - 64)
    dsimp only
    linarith

structure Pays (e e' : PacingEngine) (sent : List Packet) : Prop where
  config : e'.config = e.config
  lastTick : e'.lastTick = e.lastTick
  budget : e'.budget + e.spent sent = e.budget
  floor : sent = [] ∨ -e.overdraft (longest sent) ≤ e'.budget

section
variable {e e' e'' : PacingEngine} {sent : List Packet}

theorem SameBudget.pays (h : SameBudget e e') : Pays e e' [] :=
  ⟨h.config, h.lastTick, by rw [spent_nil, add_zero, h.budget], .inl rfl⟩

theorem Pays.still (h : Pays e e' sent) (h' : SameBudget e' e'') : Pays e e'' sent := ⟨h'.config.trans h.config,
    h'.lastTick.trans h.lastTick, by rw [h'.budget, h.budget], by rw [h'.budget]; exact h.floor⟩

theorem packetCost_of_config (h : e'.config = e.config) (pktLen : Nat) :
    e'.packetCost pktLen = e.packetCost pktLen := by
  unfold packetCost
  rw [h]

theorem overdraft_of_config (h : e'.config = e.config) (len : Nat) : e'.overdraft len = e.overdraft len := by
  unfold overdraft
  rw [h]

theorem Pays.send (h : Pays e e' sent) (hroom : e'.budgetHasRoom = true)
    (hconfig : e''.config = e'.config) (htick : e''.lastTick = e'.lastTick)
    (hbudget : e''.budget = e'.budget - e'.packetCost p.1.length) : Pays e e'' (sent ++ [p]) := by
  have hcost := packetCost_of_config h.config p.1.length
  have hsingle : e.spent [p] = e.packetCost p.1.length := by simp [spent]
  refine ⟨hconfig.trans h.config, htick.trans h.lastTick, ?_, .inr ?_⟩
  · rw [spent_append, hsingle, hbudget, hcost, ← h.budget]
    ring
  have hover := overdraft_of_room hroom p.1.length
  have hmono : e.overdraft p.1.length ≤ e.overdraft (longest (sent ++ [p])) := by
    apply overdraft_mono
    rw [longest_append]
    simp [longest]
  rw [overdraft_of_config h.config] at hover
  linarith

end

/-! ## A tick -/

def Settles (e : PacingEngine) (p : Packet) (r : PacingEngine × Option TickResult) : Prop :=
  match r.2 with
  | none => r.1.config = e.config ∧ r.1.lastTick = e.lastTick ∧ r.1.budget = e.budget - e.packetCost p.1.length
  | some _ => SameBudget e r.1

theorem settles_trySendQueuedPacket (e : PacingEngine) (q : QueuedPacket) (retransmit : Bool) (outcome : SendOutcome)
    (sent : Nat) : Settles e q.packet (e.trySendQueuedPacket q retransmit outcome sent) := by
  unfold trySendQueuedPacket trySendWith
  cases outcome with
  | ok => exact ⟨rfl, rfl, rfl⟩
  | wouldBlock => cases retransmit <;> exact ⟨rfl, rfl, rfl⟩
  | error => cases retransmit <;> exact ⟨rfl, rfl, rfl⟩

theorem settles_trySendNextPacket (e : PacingEngine) (item : NextPacket) (outcome : SendOutcome) (sent : Nat) :
    Settles e item.packet (e.trySendNextPacket item outcome sent) := by
  unfold trySendNextPacket trySendWith
  cases item with
  | control q => cases outcome <;> exact ⟨rfl, rfl, rfl⟩
  | data pkt dest enqueuedAt => cases outcome <;> exact ⟨rfl, rfl, rfl⟩

section
variable {e : PacingEngine} {t : Ticking}

theorem Pays.attempt (h : Pays e t.engine t.sent) (hroom : t.engine.budgetHasRoom = true) {picked : PacingEngine}
    (hpick : SameBudget t.engine picked) {r : PacingEngine × Option TickResult} (hr : Settles picked p r) : Pays e r.1
    (if r.2.isSome then t.sent else t.sent ++ [p]) := by
  unfold Settles at hr
  cases hr2 : r.2 with
  | none =>
    rw [hr2] at hr
    refine h.send hroom (hr.1.trans hpick.config) (hr.2.1.trans hpick.lastTick) ?_
    rw [hr.2.2, hpick.budget, packetCost_of_config hpick.config]
  | some result =>
    rw [hr2] at hr
    exact h.still (hpick.trans hr)

theorem sameBudget_withRest (e : PacingEngine) (retransmit : Bool) (rest : List QueuedPacket) :
    SameBudget e (e.withRest retransmit rest) := by
  cases retransmit <;> exact ⟨rfl, rfl, rfl⟩

theorem tickRule_pays : TickRule fun t => Pays e t.engine t.sent where
  reserved t retransmit q rest outcome n h hroom _ :=
    h.attempt hroom (sameBudget_withRest ..) (settles_trySendQueuedPacket ..)
  idle t freezeDrr c h _ := h.still (selects_popNextApd t.engine freezeDrr c).sameBudget
  burst t freezeDrr c item outcome n h hroom _ :=
    h.attempt hroom (selects_popNextApd t.engine freezeDrr c).sameBudget (settles_trySendNextPacket ..)

end

structure Refills (e e' : PacingEngine) (now : Instant) : Prop where
  config : e'.config = e.config
  lastTick : e'.lastTick = now
  budget : e'.budget = min (e.budget + elapsedSecs now e.lastTick * e.paceRate) e.budgetCapValue

theorem refills_refillBudget (e : PacingEngine) (now : Instant) : Refills e (e.refillBudget now) now := by
  unfold refillBudget refreshDrrRttRef
  dsimp only
  repeat' split
  all_goals exact ⟨rfl, rfl, rfl⟩

theorem tickWith_budget (e : PacingEngine) (c : TickClock) (answers : Answers) :
    ∃ e₁, Refills e e₁ c.start ∧ Pays e₁ (e.tickWith c answers).engine (e.tickWith c answers).sent := by
  have hstart : SameBudget (e.refillBudget c.start) _ := (sameBudget_apdStep _ c.start c.drain).trans
      (sameBudget_shedStaleBulkRr _ c.start (c.start + micros (max e.config.maxTickWorkUs 100)) c.shed)
  refine ⟨e.refillBudget c.start, refills_refillBudget e c.start, ?_⟩
  exact tickRule_pays.tickWith hstart.pays

/-! ## Windows of a run -/

def sentIn (log : List Move) : List Packet := (log.filter (·.1 = .sent)).map Prod.snd

theorem sentIn_append {log log' : List Move} : sentIn (log ++ log') = sentIn log ++ sentIn log' := by
  unfold sentIn
  rw [List.filter_append, List.map_append]

theorem sentIn_map {fate : Fate} : sentIn (l.map (Prod.mk fate)) = if fate = .sent then l else [] := by
  unfold sentIn
  rw [List.filter_map, List.map_map]
  by_cases h : fate = .sent
  · simp [Function.comp_def, h]
  simp [Function.comp_def, h]

/-- A call that changes no settings, made with a clock that does not go back. -/
def Steady (e : PacingEngine) : Op → Prop
  | .setConfig _ _ => False
  | .tick c _ => e.lastTick ≤ c.start
  | _ => True

instance (e : PacingEngine) (op : Op) : Decidable (e.Steady op) := by
  unfold Steady
  split <;> infer_instance

theorem sentIn_tick : sentIn (e.step (.tick c answers)).2 = (e.tickWith c answers).sent := by
  simp [step, sentIn_append, sentIn_map]

theorem step_idle (h : e.Steady op) (hop : ∀ c answers, op ≠ .tick c answers) :
    SameBudget e (e.step op).1 ∧ sentIn (e.step op).2 = [] := by
  cases op with
  | enqueuePeer pkt dest rttMs qdMs now =>
    refine ⟨?_, by simp [step, sentIn, List.filter_map]⟩
    unfold step enqueuePeerWithHints
    dsimp only
    split <;> exact ⟨rfl, rfl, rfl⟩
  | enqueueBatch dest pkts rttMs qdMs now =>
    constructor
    · unfold step tryEnqueuePeerBatch
      dsimp only
      repeat' split
      all_goals exact ⟨rfl, rfl, rfl⟩
    unfold step
    dsimp only
    split
    · exact sentIn_map
    rfl
  | enqueueControl pkt dest now => exact ⟨⟨rfl, rfl, rfl⟩, by simp [step, sentIn, List.filter_map]⟩
  | enqueueRetransmit pkt dest now => exact ⟨⟨rfl, rfl, rfl⟩, by simp [step, sentIn, List.filter_map]⟩
  | removePeer dest =>
    refine ⟨?_, by simp [step, sentIn, List.filter_map]⟩
    unfold step removePeer
    dsimp only
    split <;> exact ⟨rfl, rfl, rfl⟩
  | setConfig cfg now => exact absurd h (by simp [Steady])
  | resetObservabilityCounters => exact ⟨⟨rfl, rfl, rfl⟩, rfl⟩
  | onCcSample dest qdMs lossEwma => exact ⟨⟨rfl, rfl, rfl⟩, rfl⟩
  | tick c answers => exact absurd rfl (hop c answers)

theorem budgetCapValue_nonneg (e : PacingEngine) : 0 ≤ e.budgetCapValue := by
  have := e.config.one_le_cap
  unfold budgetCapValue
  split <;> linarith

theorem paceRate_nonneg (e : PacingEngine) : 0 ≤ e.paceRate := by
  unfold paceRate
  split <;> exact Nat.cast_nonneg _

theorem elapsedSecs_nonneg (now since : Instant) : 0 ≤ elapsedSecs now since :=
  div_nonneg (Nat.cast_nonneg _) (by norm_num)

theorem elapsedSecs_add {t₀ t₁ t₂ : Instant} (h₁ : t₀ ≤ t₁) (h₂ : t₁ ≤ t₂) :
    elapsedSecs t₁ t₀ + elapsedSecs t₂ t₁ = elapsedSecs t₂ t₀ := by
  unfold elapsedSecs
  rw [← add_div, ← Nat.cast_add, Nat.add_comm, Nat.sub_add_sub_cancel h₂ h₁]

structure Within (e₀ : PacingEngine) (t₀ : Instant) (e : PacingEngine) (sent : List Packet) : Prop where
  config : e.config = e₀.config
  later : t₀ ≤ e.lastTick
  bucket : e.budget + e₀.spent sent ≤ e₀.budgetCapValue + e₀.paceRate * elapsedSecs e.lastTick t₀
  floor : sent = [] ∨ -e₀.overdraft (longest sent) ≤ e.budget

section
variable {e₀ e e₁ e' : PacingEngine} {t₀ : Instant} {sent sent' : List Packet}

theorem spent_of_config (h : e'.config = e.config) (sent : List Packet) : e'.spent sent = e.spent sent := by
  unfold spent
  simp only [packetCost_of_config h]

theorem Refills.budget_le_cap (h : Refills e e₁ now) : e₁.budget ≤ e.budgetCapValue := by
  rw [h.budget]
  exact min_le_right _ _

theorem within_start (hr : Refills e e₁ now) (hp : Pays e₁ e' sent) : Within e now e' sent := by
  have hover := overdraft_of_config hr.config (longest sent)
  have hspent := spent_of_config hr.config sent
  have hzero : elapsedSecs now now = 0 := by simp [elapsedSecs]
  refine ⟨hp.config.trans hr.config, ?_, ?_, ?_⟩
  · rw [hp.lastTick, hr.lastTick]
  · rw [← hspent, hp.budget, hp.lastTick, hr.lastTick, hzero, mul_zero, add_zero]
    exact hr.budget_le_cap
  rw [← hover]
  exact hp.floor

section
variable (h : Within e₀ t₀ e sent)
include h

theorem Within.tick (hnow : e.lastTick ≤ now) (hr : Refills e e₁ now)
    (hp : Pays e₁ e' sent') : Within e₀ t₀ e' (sent ++ sent') := by
  have hconfig : e₁.config = e₀.config := hr.config.trans h.config
  have hcap : e.budgetCapValue = e₀.budgetCapValue := by
    unfold budgetCapValue
    rw [h.config]
  have hrate : e.paceRate = e₀.paceRate := by
    unfold paceRate
    rw [h.config]
  have hspent := spent_of_config hconfig sent'
  have hlast : e'.lastTick = now := hp.lastTick.trans hr.lastTick
  refine ⟨hp.config.trans hconfig, ?_, ?_, ?_⟩
  · rw [hlast]
    exact Nat.le_trans h.later hnow
  · have hgain : e₁.budget ≤ e.budget + elapsedSecs now e.lastTick * e₀.paceRate := by
      rw [hr.budget, ← hrate]
      exact min_le_left _ _
    have hpaid := hp.budget
    have hb := h.bucket
    rw [hspent] at hpaid
    rw [spent_append, hlast, ← elapsedSecs_add h.later hnow]
    linarith
  by_cases hs' : sent' = []
  · rw [hs', List.append_nil]
    rcases h.floor with hs | hfloor
    · exact .inl hs
    right
    have hpaid := hp.budget
    rw [hs', spent_nil, add_zero] at hpaid
    rw [hpaid, hr.budget, hcap]
    have hgain := mul_nonneg (elapsedSecs_nonneg now e.lastTick) e.paceRate_nonneg
    have hover := e₀.overdraft_nonneg (longest sent)
    have := e₀.budgetCapValue_nonneg
    exact le_min (by linarith) (by linarith)
  right
  have hmono : e₀.overdraft (longest sent') ≤ e₀.overdraft (longest (sent ++ sent')) := by
    apply overdraft_mono
    rw [longest_append]
    exact Nat.le_max_right _ _
  have hfloor := hp.floor.resolve_left hs'
  rw [overdraft_of_config hconfig] at hfloor
  linarith

theorem Within.still (hsame : SameBudget e e') : Within e₀ t₀ e' sent :=
  ⟨hsame.config.trans h.config, by rw [hsame.lastTick]; exact h.later,
    by rw [hsame.budget, hsame.lastTick]; exact h.bucket, by rw [hsame.budget]; exact h.floor⟩

theorem Within.step (hop : e.Steady op) : Within e₀ t₀ (e.step op).1 (sent ++ sentIn (e.step op).2) := by
  by_cases htick : ∃ c answers, op = .tick c answers
  · obtain ⟨c, answers, rfl⟩ := htick
    obtain ⟨e₁, hr, hp⟩ := tickWith_budget e c answers
    rw [sentIn_tick]
    exact h.tick hop hr hp
  obtain ⟨hsame, hnone⟩ := step_idle hop fun c answers heq => htick ⟨c, answers, heq⟩
  rw [hnone, List.append_nil]
  exact h.still hsame

theorem Within.spent_le :
    e₀.spent sent ≤ e₀.budgetCapValue + e₀.paceRate * elapsedSecs e.lastTick t₀ + e₀.overdraft (longest sent) := by
  have hover := e₀.overdraft_nonneg (longest sent)
  rcases h.floor with hs | hfloor
  · have hgain := mul_nonneg e₀.paceRate_nonneg (elapsedSecs_nonneg e.lastTick t₀)
    have := e₀.budgetCapValue_nonneg
    subst hs
    rw [spent_nil]
    linarith
  have := h.bucket
  linarith

end

end

/-- The packets that the steps `i` to `j` of a run send. -/
def sentBetween (e : PacingEngine) (ops : List Op) (i j : Nat) : List Packet :=
  (List.range' i (j + 1 - i)).flatMap fun k => sentIn (emitAt step e ops k)

theorem sentBetween_self : sentBetween e ops i i = sentIn (emitAt step e ops i) := by
  unfold sentBetween
  rw [Nat.add_sub_cancel_left]
  simp

theorem sentBetween_succ (h : i ≤ j) :
    sentBetween e ops i (j + 1) = sentBetween e ops i j ++ sentIn (emitAt step e ops (j + 1)) := by
  unfold sentBetween
  rw [show j + 1 + 1 - i = (j + 1 - i) + 1 by omega, List.range'_concat, List.flatMap_append,
    show i + 1 * (j + 1 - i) = j + 1 by omega]
  simp

section
variable {e : PacingEngine} {ops : List Op}

theorem within_window (hok : Each step e ops Steady) (hij : i ≤ j)
    (hi : ops[i]? = some (.tick c answers)) (hj : j < ops.length) :
    Within (stateAt step e ops i) c.start (stateAt step e ops (j + 1)) (sentBetween e ops i j) := by
  induction j, hij using Nat.le_induction with
  | base =>
    obtain ⟨e₁, hr, hp⟩ := tickWith_budget (stateAt step e ops i) c answers
    rw [stateAt_succ _ _ _ hi, sentBetween_self, emitAt, hi]
    dsimp only
    rw [sentIn_tick]
    exact within_start hr hp
  | succ j hij ih =>
    have hop := List.getElem?_eq_getElem hj
    rw [stateAt_succ _ _ _ hop, sentBetween_succ hij, emitAt, hop]
    exact (ih (by omega)).step (hok (j + 1) _ hop)

theorem config_step (h : e.Steady op) : (e.step op).1.config = e.config := by
  by_cases htick : ∃ c answers, op = .tick c answers
  · obtain ⟨c, answers, rfl⟩ := htick
    obtain ⟨e₁, hr, hp⟩ := tickWith_budget e c answers
    exact hp.config.trans hr.config
  · exact (step_idle h fun c answers heq => htick ⟨c, answers, heq⟩).1.config

theorem config_stateAt (hok : Each step e ops Steady) (i : Nat) : (stateAt step e ops i).config = e.config :=
  Machine.invariant (P := fun s => s.config = e.config) rfl (fun _ _ h hs => (config_step h).trans hs) hok i

/-- Between two ticks of a run whose settings stay, the packets sent cost at most the cap, the gain of the time
between and, in bytes, what the longest packet exceeds the smallest budget that lets a packet go. -/
theorem sent_within_bucket (hok : Each step e ops Steady) (hij : i ≤ j) {ci cj : TickClock}
    {ai aj : Answers} (hi : ops[i]? = some (.tick ci ai)) (hj : ops[j]? = some (.tick cj aj)) :
    let sent := sentBetween e ops i j
    (e.config.paceRateMode = .bytes → (sent.map fun p => (p.1.length : ℚ)).sum ≤
      1300 * e.config.budgetCapPackets + e.config.targetBps * elapsedSecs cj.start ci.start +
        max 0 ((longest sent : ℚ) - 64)) ∧
    (e.config.paceRateMode = .pps → (sent.length : ℚ) ≤
      e.config.budgetCapPackets + e.config.targetPps * elapsedSecs cj.start ci.start) := by
  intro sent
  have hlen : j < ops.length := (List.getElem?_eq_some_iff.mp hj).1
  have hwindow := (within_window hok hij hi hlen).spent_le
  have hlast : (stateAt step e ops (j + 1)).lastTick = cj.start := by
    obtain ⟨e₁, hr, hp⟩ := tickWith_budget (stateAt step e ops j) cj aj
    rw [stateAt_succ _ _ _ hj]
    exact hp.lastTick.trans hr.lastTick
  have hconfig := config_stateAt hok i
  rw [hlast, spent_of_config hconfig, overdraft_of_config hconfig] at hwindow
  unfold spent budgetCapValue paceRate overdraft packetCost at hwindow
  rw [hconfig] at hwindow
  constructor
  · intro hmode
    rw [hmode] at hwindow
    rw [mul_comm (1300 : ℚ)]
    exact hwindow
  intro hmode
  rw [hmode] at hwindow
  simpa using hwindow

end

def TickClock.at (now : Instant) : TickClock :=
  ⟨now, now, fun _ => now, fun _ => now, fun _ => now, fun _ => now, fun _ => ⟨now, now⟩⟩

def twoTicks : List Op :=
  [.enqueueControl [1, 2, 3] (.v4 1 9000) 0, .tick (.at (secs 1)) fun _ => .ok, .tick (.at (secs 2)) fun _ => .ok]

/-- A control packet is sent in the first of two ticks. -/
theorem twoTicks_within_bucket : sentBetween (.new 0) twoTicks 1 2 = [([1, 2, 3], .v4 1 9000)] ∧
    ((sentBetween (.new 0) twoTicks 1 2).map fun p => (p.1.length : ℚ)).sum ≤ 1300 *
    (PacingEngine.new 0).config.budgetCapPackets + (PacingEngine.new 0).config.targetBps * elapsedSecs (secs 2)
    (secs 1) + max 0 ((longest (sentBetween (.new 0) twoTicks 1 2) : ℚ) - 64) := by
  have hok : Each step (.new 0) twoTicks Steady := by decide +kernel
  have hi : twoTicks[1]? = some (.tick (.at (secs 1)) fun _ => .ok) := rfl
  have hj : twoTicks[2]? = some (.tick (.at (secs 2)) fun _ => .ok) := rfl
  constructor
  · decide +kernel
  exact (sent_within_bucket hok (by decide) hi hj).1 rfl

end ConnectUnit.Pacing.PacingEngine
