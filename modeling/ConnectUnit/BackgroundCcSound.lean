import ConnectUnit.Lib.Machine
import ConnectUnit.AdvancedTuning

/-!
# The limits of background congestion control

Rates stay between their bounds and tokens between zero and the burst.
-/

open Machine (Each stateAt trace)

namespace ConnectUnit

variable {t t' : Advanced.CongestionTuning} {st : PeerCcState} {qdMs rate : ℚ}
variable {pktLen : Nat} {dtSecs lossEwma holSojournMs : ℚ} {dest d : SocketAddr}

/-! ## Configurations -/

namespace Advanced

section
variable {α : Type} [LinearOrder α]

theorem clampTo_mem (x : α) {lo hi : α} (h : lo ≤ hi) : lo ≤ clampTo x lo hi h ∧ clampTo x lo hi h ≤ hi :=
  ⟨le_max_left _ _, max_le h (min_le_right _ _)⟩

theorem clamp_mem {x lo hi y : α} (h : clamp x lo hi = some y) : lo ≤ y ∧ y ≤ hi := by
  unfold clamp at h
  split at h
  · rename_i hle
    cases h
    exact clampTo_mem x hle
  · cases h

end

end Advanced

structure BackgroundCcConfig.Sane (cfg : BackgroundCcConfig) : Prop where
  min_pos : 0 < cfg.minRateBps
  min_le_initial : cfg.minRateBps ≤ cfg.initialRateBps
  initial_le_max : cfg.initialRateBps ≤ cfg.maxRateBps
  cap_pos : 0 < cfg.burstCapBytes

theorem Advanced.CongestionTuning.sane {t t' : CongestionTuning} (h : t.clampRateKnobs = some t') :
    t'.toBackgroundCcConfig.Sane := by
  obtain ⟨maxRate, _, h⟩ := Option.bind_eq_some_iff.mp h
  obtain ⟨initial, hinitial, h⟩ := Option.bind_eq_some_iff.mp h
  cases h
  have hmin := clampTo_mem t.minRateBps thousand_le_f64Max
  have hcap := clampTo_mem t.burstCapBytes (by decide : 512 ≤ 256 * 1024)
  have hinitial := clamp_mem hinitial
  refine ⟨lt_of_lt_of_le (by norm_num) hmin.1, hinitial.1, hinitial.2, ?_⟩
  exact Nat.cast_pos.mpr (lt_of_lt_of_le (by decide) hcap.1)

/-! ## Runs -/

/-- A call of the pacing engine. A packet is sent after `can_send_data` allowed it. -/
inductive CcOp where
  | ensurePeer (dest : SocketAddr)
  | onCcSample (dest : SocketAddr) (qdMs lossEwma : ℚ)
  | refillAllTokens (dtSecs : ℚ)
  | send (dest : SocketAddr) (pktLen : Nat) (holSojournMs : ℚ)
  | consumeSendBytes (dest : SocketAddr) (pktLen : Nat)
  | removePeer (dest : SocketAddr)

inductive CcEvent where
  /-- A packet was sent; `escaped` says that its wait alone let it through, `known` that the peer has a state. -/
  | sent (dest : SocketAddr) (pktLen : Nat) (escaped known : Bool)
  | refilled (tokens : SocketAddr → ℚ)

namespace BackgroundCcEngine

def worth (cc : BackgroundCcEngine) (dtSecs : ℚ) (dest : SocketAddr) : ℚ :=
  if !cc.config.enabled || dtSecs ≤ 0 then 0 else ((cc.peers.lookup dest).map (·.smoothedRateBps * dtSecs)).getD 0

def step (cc : BackgroundCcEngine) : CcOp → BackgroundCcEngine × List CcEvent
  | .ensurePeer dest => (cc.ensurePeer dest, [])
  | .onCcSample dest qdMs lossEwma => (cc.onCcSample dest qdMs lossEwma, [])
  | .refillAllTokens dtSecs => (cc.refillAllTokens dtSecs, [.refilled (cc.worth dtSecs)])
  | .send dest pktLen holSojournMs =>
    if cc.canSendData dest pktLen holSojournMs then
      (cc.consumeSendBytes dest pktLen,
        [.sent dest pktLen (cc.config.holEscapeMs ≤ holSojournMs) (cc.peers.lookup dest).isSome])
    else (cc, [])
  | .consumeSendBytes dest pktLen => (cc.consumeSendBytes dest pktLen, [])
  | .removePeer dest => (cc.removePeer dest, [])

end BackgroundCcEngine

def CcEvent.paid (dest : SocketAddr) (cap : ℚ) : CcEvent → ℚ
  | .sent d pktLen escaped _ => if d = dest ∧ escaped = false ∧ pktLen ≤ cap then pktLen else 0
  | .refilled _ => 0

def CcEvent.paidKnown (dest : SocketAddr) (cap : ℚ) : CcEvent → ℚ
  | .sent d pktLen escaped known => if d = dest ∧ escaped = false ∧ known = true ∧ pktLen ≤ cap then pktLen else 0
  | .refilled _ => 0

def CcEvent.earned (dest : SocketAddr) : CcEvent → ℚ
  | .sent .. => 0
  | .refilled tokens => tokens dest

/-! ## The limits of a peer -/

structure PeerCcState.Within (cfg : BackgroundCcConfig) (st : PeerCcState) : Prop where
  min_le_rate : cfg.minRateBps ≤ st.rateBps
  rate_le_max : st.rateBps ≤ cfg.maxRateBps
  min_le_smoothed : cfg.minRateBps ≤ st.smoothedRateBps
  smoothed_le_max : st.smoothedRateBps ≤ cfg.maxRateBps
  tokens_nonneg : 0 ≤ st.tokenBytes
  tokens_le_cap : st.tokenBytes ≤ cfg.burstCapBytes

namespace PeerCcState

section
variable {cfg : BackgroundCcConfig} {st : PeerCcState}

theorem clampQ_mem (x : ℚ) {lo hi : ℚ} (h : lo ≤ hi) : lo ≤ clampQ x lo hi ∧ clampQ x lo hi ≤ hi :=
  ⟨le_max_left _ _, max_le h (min_le_right _ _)⟩

theorem within_new (hc : cfg.Sane) : Within cfg (.new cfg.initialRateBps) :=
  ⟨hc.min_le_initial, hc.initial_le_max, hc.min_le_initial, hc.initial_le_max, le_refl _, hc.cap_pos.le⟩

theorem Within.consume (h : Within cfg st) : Within cfg (st.consume pktLen) := { h with
    tokens_nonneg := le_max_right _ _
    tokens_le_cap := max_le (by linarith [h.tokens_le_cap, (Nat.cast_nonneg pktLen : (0 : ℚ) ≤ pktLen)])
      (h.tokens_nonneg.trans h.tokens_le_cap) }

theorem refill_fields (cfg : BackgroundCcConfig) (dtSecs : ℚ) (st : PeerCcState) : (refill cfg dtSecs st).rateBps =
    st.rateBps ∧ (refill cfg dtSecs st).smoothedRateBps = st.smoothedRateBps ∧ (refill cfg dtSecs st).tokenBytes = min
    (st.tokenBytes + st.smoothedRateBps * dtSecs) cfg.burstCapBytes := by
  unfold refill
  dsimp only
  split
  · exact ⟨rfl, rfl, rfl⟩
  split
  · exact ⟨rfl, rfl, rfl⟩
  exact ⟨rfl, rfl, rfl⟩

theorem Within.refill (hc : cfg.Sane) (h : Within cfg st) (hdt : 0 < dtSecs) : Within cfg (refill cfg dtSecs st) := by
  obtain ⟨hrate, hsmoothed, htokens⟩ := refill_fields cfg dtSecs st
  have hgain : 0 ≤ st.smoothedRateBps * dtSecs := mul_nonneg (hc.min_pos.le.trans h.min_le_smoothed) hdt.le
  refine ⟨hrate ▸ h.min_le_rate, hrate ▸ h.rate_le_max, hsmoothed ▸ h.min_le_smoothed, hsmoothed ▸ h.smoothed_le_max,
    ?_, ?_⟩
  · rw [htokens]
    exact le_min (add_nonneg h.tokens_nonneg hgain) hc.cap_pos.le
  rw [htokens]
  exact min_le_right _ _

theorem smoothed_mem {alpha x y lo hi : ℚ} (ha : 0 ≤ alpha ∧ alpha ≤ 95 / 100) (hx : lo ≤ x ∧ x ≤ hi)
    (hy : lo ≤ y ∧ y ≤ hi) : lo ≤ alpha * x + (1 - alpha) * y ∧ alpha * x + (1 - alpha) * y ≤ hi := by
  have hb : 0 ≤ 1 - alpha := by linarith
  constructor
  · linarith [mul_le_mul_of_nonneg_left hx.1 ha.1, mul_le_mul_of_nonneg_left hy.1 hb]
  linarith [mul_le_mul_of_nonneg_left hx.2 ha.1, mul_le_mul_of_nonneg_left hy.2 hb]

theorem Within.update (hc : cfg.Sane) (h : Within cfg st) (qdMs lossEwma : ℚ) :
    Within cfg (st.applyBackgroundCcRateUpdate cfg qdMs lossEwma) := by
  have hbounds : cfg.minRateBps ≤ cfg.maxRateBps := hc.min_le_initial.trans hc.initial_le_max
  unfold applyBackgroundCcRateUpdate
  dsimp only
  split
  · -- the rate falls back to the delivery rate
    rename_i rate hrate
    have hmem : cfg.minRateBps ≤ rate ∧ rate ≤ cfg.maxRateBps := by
      split at hrate
      · obtain ⟨d, _, rfl⟩ := Option.map_eq_some_iff.mp hrate
        exact clampQ_mem _ hbounds
      cases hrate
    exact ⟨hmem.1, hmem.2, hmem.1, hmem.2, h.tokens_nonneg, h.tokens_le_cap⟩
  have hrate := clampQ_mem (delayUpdate cfg qdMs (if st.lossActionable cfg qdMs lossEwma = true then
    max (st.rateBps * cfg.lossMultiplicativeDecrease) cfg.minRateBps else st.rateBps)) hbounds
  have hsmoothed := smoothed_mem (clampQ_mem cfg.rateSmoothingAlpha (by norm_num : (0 : ℚ) ≤ 95 / 100))
    ⟨h.min_le_smoothed, h.smoothed_le_max⟩ hrate
  exact ⟨hrate.1, hrate.2, hsmoothed.1, hsmoothed.2, h.tokens_nonneg, h.tokens_le_cap⟩

theorem tokens_update : (st.applyBackgroundCcRateUpdate cfg qdMs lossEwma).tokenBytes = st.tokenBytes := by
  unfold applyBackgroundCcRateUpdate
  dsimp only
  split
  · rfl
  rfl

end

end PeerCcState

/-! ## All peers -/

namespace BackgroundCcEngine

structure Limited (cfg : BackgroundCcConfig) (cc : BackgroundCcEngine) : Prop where
  config : cc.config = cfg
  enabled : ∀ dest st, cc.peers.lookup dest = some st → cc.config.enabled = true
  within : ∀ dest st, cc.peers.lookup dest = some st → st.Within cfg

def tokens (cc : BackgroundCcEngine) (dest : SocketAddr) : ℚ := ((cc.peers.lookup dest).map (·.tokenBytes)).getD 0

section
variable {cfg : BackgroundCcConfig} {cc : BackgroundCcEngine}

theorem limited_new (cfg : BackgroundCcConfig) : Limited cfg (.new cfg) := ⟨rfl, nofun, nofun⟩

theorem Limited.insert (h : Limited cfg cc) (hon : ¬ (!cc.config.enabled) = true) (dest : SocketAddr)
    (hst : st.Within cfg) : Limited cfg { cc with peers := cc.peers.insert dest st } := by
  refine ⟨h.config, fun _ _ _ => by simpa using hon, fun d st' hd => ?_⟩
  rw [HashMap.lookup_insert_eq] at hd
  split at hd
  · cases hd
    exact hst
  exact h.within d st' hd

theorem Limited.peer (hc : cfg.Sane) (h : Limited cfg cc) (dest : SocketAddr) : (cc.peer dest).Within cfg := by
  unfold BackgroundCcEngine.peer
  cases hd : cc.peers.lookup dest with
  | none =>
    rw [h.config]
    exact PeerCcState.within_new hc
  | some st => exact h.within dest st hd

theorem Limited.consume (h : Limited cfg cc) (dest : SocketAddr) (pktLen : Nat) :
    Limited cfg (cc.consumeSendBytes dest pktLen) := by
  unfold consumeSendBytes
  split
  · exact h
  rename_i hon
  refine ⟨h.config, fun _ _ _ => by simpa using hon, fun d st hd => ?_⟩
  rw [HashMap.lookup_modify] at hd
  split at hd
  · obtain ⟨st', hst', rfl⟩ := Option.map_eq_some_iff.mp hd
    exact (h.within dest st' hst').consume
  exact h.within d st hd

theorem Limited.kept (hc : cfg.Sane) (h : Limited cfg cc) (op : CcOp) : Limited cfg (cc.step op).1 := by
  cases op with
  | ensurePeer dest =>
    unfold BackgroundCcEngine.step ensurePeer
    dsimp only
    split
    · exact h
    rename_i hon
    exact h.insert hon dest (h.peer hc dest)
  | onCcSample dest qdMs lossEwma =>
    unfold BackgroundCcEngine.step onCcSample
    dsimp only
    split
    · exact h
    rename_i hon
    have hst := (h.peer hc dest).update hc qdMs lossEwma
    exact h.insert hon dest (by rw [h.config]; exact hst)
  | refillAllTokens dtSecs =>
    unfold BackgroundCcEngine.step refillAllTokens
    dsimp only
    split
    · exact h
    rename_i hon
    simp only [Bool.or_eq_true, decide_eq_true_eq, not_or, not_le] at hon
    refine ⟨h.config, fun _ _ _ => by simpa using hon.1, fun d st hd => ?_⟩
    rw [HashMap.lookup_mapVals] at hd
    obtain ⟨st', hst', rfl⟩ := Option.map_eq_some_iff.mp hd
    rw [h.config]
    exact (h.within d st' hst').refill hc hon.2
  | send dest pktLen holSojournMs =>
    unfold BackgroundCcEngine.step
    dsimp only
    split
    · exact h.consume dest pktLen
    exact h
  | consumeSendBytes dest pktLen => exact h.consume dest pktLen
  | removePeer dest =>
    have hleft (d : SocketAddr) (st : PeerCcState) (hd : (cc.peers.erase dest).lookup d = some st) :
        cc.peers.lookup d = some st := by
      rw [HashMap.lookup_erase_eq] at hd
      split at hd
      · cases hd
      exact hd
    exact ⟨h.config, fun d st hd => h.enabled d st (hleft d st hd), fun d st hd => h.within d st (hleft d st hd)⟩

/-! ## Tokens pay for packets -/

def paid (dest : SocketAddr) (cap : ℚ) (events : List CcEvent) : ℚ := (events.map (·.paid dest cap)).sum

def paidKnown (dest : SocketAddr) (cap : ℚ) (events : List CcEvent) : ℚ := (events.map (·.paidKnown dest cap)).sum

def earned (dest : SocketAddr) (events : List CcEvent) : ℚ := (events.map (·.earned dest)).sum

theorem tokens_insert (hst : st.tokenBytes = (cc.peer dest).tokenBytes) :
    tokens { cc with peers := cc.peers.insert dest st } d = cc.tokens d := by
  unfold tokens
  dsimp only
  rw [HashMap.lookup_insert_eq]
  split
  · rename_i hd
    rw [Option.map_some, Option.getD_some, hst, hd, BackgroundCcEngine.peer]
    cases cc.peers.lookup dest <;> rfl
  · rfl

theorem Limited.tokens_nonneg (h : Limited cfg cc) (dest : SocketAddr) : 0 ≤ cc.tokens dest := by
  unfold tokens
  cases hd : cc.peers.lookup dest with
  | none => exact le_refl _
  | some st => exact (h.within dest st hd).tokens_nonneg

theorem Limited.tokens_consume (h : Limited cfg cc) : (cc.consumeSendBytes dest pktLen).tokens d ≤ cc.tokens d := by
  unfold consumeSendBytes
  split
  · exact le_refl _
  unfold tokens
  dsimp only
  rw [HashMap.lookup_modify]
  split
  · rename_i heq
    rw [heq]
    cases hd : cc.peers.lookup dest with
    | none => exact le_refl (0 : ℚ)
    | some st => exact max_le (sub_le_self _ (Nat.cast_nonneg pktLen)) (h.within dest st hd).tokens_nonneg
  · exact le_refl _

theorem Limited.tokens_paid (h : Limited cfg cc)
    (hsend : cc.canSendData dest pktLen holSojournMs = true) (hknown : (cc.peers.lookup dest).isSome = true)
    (hescape : ¬ cc.config.holEscapeMs ≤ holSojournMs) (hfits : pktLen ≤ cc.config.burstCapBytes) :
    (cc.consumeSendBytes dest pktLen).tokens dest + pktLen = cc.tokens dest := by
  obtain ⟨st, hst⟩ := Option.isSome_iff_exists.mp hknown
  have hon := h.enabled dest st hst
  have hpaid : (pktLen : ℚ) ≤ st.tokenBytes := by
    simp only [canSendData, hst, hon, Bool.not_true, Bool.false_or, PeerCcState.peerCanSendBytes, Bool.or_eq_true,
      Bool.and_eq_true, decide_eq_true_eq] at hsend
    rcases hsend with (h | h) | h
    · exact absurd h hescape
    · exact h
    exact absurd h.1 (not_lt.mpr hfits)
  unfold consumeSendBytes tokens
  rw [hon]
  simp only [Bool.not_true, Bool.false_eq_true, if_false]
  rw [HashMap.lookup_modify, if_pos rfl, hst]
  show max (st.tokenBytes - pktLen) 0 + pktLen = st.tokenBytes
  rw [max_eq_left (by linarith), sub_add_cancel]

theorem Limited.tokens_send (h : Limited cfg cc) :
    (cc.step (.send dest pktLen holSojournMs)).1.tokens d + paidKnown d cfg.burstCapBytes
    (cc.step (.send dest pktLen holSojournMs)).2 ≤ cc.tokens d := by
  unfold BackgroundCcEngine.step
  dsimp only
  split
  · rename_i hsend
    have hone (ev : CcEvent) : paidKnown d cfg.burstCapBytes [ev] = ev.paidKnown d cfg.burstCapBytes := by
      simp [paidKnown]
    rw [hone, CcEvent.paidKnown]
    split
    · rename_i hpaid
      obtain ⟨rfl, hescape, hknown, hfits⟩ := hpaid
      rw [decide_eq_false_iff_not] at hescape
      exact (h.tokens_paid hsend hknown hescape (h.config ▸ hfits)).le
    rw [add_zero]
    exact h.tokens_consume
  · simp [paidKnown]

theorem tokens_refill : (cc.refillAllTokens dtSecs).tokens d ≤ cc.tokens d + cc.worth dtSecs d := by
  unfold refillAllTokens worth
  split
  · rw [add_zero]
  unfold tokens
  dsimp only
  rw [HashMap.lookup_mapVals]
  cases cc.peers.lookup d with
  | none => exact (add_zero (0 : ℚ)).ge
  | some st =>
    show (PeerCcState.refill cc.config dtSecs st).tokenBytes ≤ st.tokenBytes + st.smoothedRateBps * dtSecs
    rw [(PeerCcState.refill_fields cc.config dtSecs st).2.2]
    exact min_le_left _ _

theorem Limited.tokens_remove (h : Limited cfg cc) : (cc.removePeer dest).tokens d ≤ cc.tokens d := by
  have hnonneg := h.tokens_nonneg d
  unfold tokens removePeer at *
  dsimp only
  rw [HashMap.lookup_erase_eq]
  split
  · exact hnonneg
  exact le_refl _

theorem Limited.tokens_step (h : Limited cfg cc) (op : CcOp) (d : SocketAddr) : (cc.step op).1.tokens d + paidKnown d
    cfg.burstCapBytes (cc.step op).2 ≤ cc.tokens d + earned d (cc.step op).2 := by
  have hquiet : paidKnown d cfg.burstCapBytes [] = 0 ∧ earned d [] = 0 := ⟨rfl, rfl⟩
  cases op with
  | ensurePeer dest =>
    rw [BackgroundCcEngine.step, hquiet.1, hquiet.2, add_zero, add_zero, ensurePeer]
    split
    · exact le_refl _
    exact (tokens_insert rfl).le
  | onCcSample dest qdMs lossEwma =>
    rw [BackgroundCcEngine.step, hquiet.1, hquiet.2, add_zero, add_zero, onCcSample]
    split
    · exact le_refl _
    exact (tokens_insert PeerCcState.tokens_update).le
  | refillAllTokens dtSecs =>
    have hpaid :
        paidKnown d cfg.burstCapBytes [.refilled (cc.worth dtSecs)] = 0 := by simp [paidKnown, CcEvent.paidKnown]
    have hearned : earned d [.refilled (cc.worth dtSecs)] = cc.worth dtSecs d := by simp [earned, CcEvent.earned]
    rw [BackgroundCcEngine.step, hpaid, hearned, add_zero]
    exact tokens_refill
  | send dest pktLen holSojournMs =>
    have hearned : earned d (cc.step (.send dest pktLen holSojournMs)).2 = 0 := by
      unfold BackgroundCcEngine.step
      dsimp only
      split
      · simp [earned, CcEvent.earned]
      rfl
    rw [hearned, add_zero]
    exact h.tokens_send
  | consumeSendBytes dest pktLen =>
    rw [BackgroundCcEngine.step, hquiet.1, hquiet.2, add_zero, add_zero]
    exact h.tokens_consume
  | removePeer dest =>
    rw [BackgroundCcEngine.step, hquiet.1, hquiet.2, add_zero, add_zero]
    exact h.tokens_remove

/-! ## Whole runs -/

theorem Limited.run (hc : cfg.Sane) (h : Limited cfg cc) (ops : List CcOp) :
    Limited cfg (Machine.run step cc ops) := by
  have hall : Limited cfg (stateAt step cc ops ops.length) :=
    Machine.invariant_all h (fun _ op hs => hs.kept hc op) ops.length
  rwa [stateAt, List.take_length] at hall

theorem Limited.paid_le (hc : cfg.Sane) (h : Limited cfg cc) (ops : List CcOp) (d : SocketAddr) : paidKnown d
    cfg.burstCapBytes (trace step cc ops) ≤ cc.tokens d + earned d (trace step cc ops) := by
  have hrun : Limited cfg (Machine.run step cc ops) ∧ (Machine.run step cc ops).tokens d +
      paidKnown d cfg.burstCapBytes (trace step cc ops) ≤ cc.tokens d + earned d (trace step cc ops) := by
    have hok : Each step cc ops fun _ _ => True := fun _ _ _ => trivial
    refine Machine.trace_invariant (I := fun s log => Limited cfg s ∧
      s.tokens d + paidKnown d cfg.burstCapBytes log ≤ cc.tokens d + earned d log) (fun s log op _ hs =>
        ?_) ⟨h, le_refl _⟩ hok
    have hstep := hs.1.tokens_step op d
    have hlog := hs.2
    refine ⟨hs.1.kept hc op, ?_⟩
    unfold paidKnown earned at *
    rw [List.map_append, List.map_append, List.sum_append, List.sum_append]
    linarith
  linarith [hrun.2, hrun.1.tokens_nonneg d]

end

/-- Rates and tokens stay within their limits, and over every interval the packets to a peer with a state that were
sent without the escape and fit the burst are paid for by its tokens at the start and its refills. -/
theorem within_limits (h : t.clampRateKnobs = some t') (ops : List CcOp) :
    let cfg := t'.toBackgroundCcConfig
    let cc := Machine.run step (.new cfg) ops
    (∀ dest st, cc.peers.lookup dest = some st → st.Within cfg) ∧
      ∀ interval dest, paidKnown dest cfg.burstCapBytes (trace step cc interval) ≤
        cc.tokens dest + earned dest (trace step cc interval) := by
  have hc := Advanced.CongestionTuning.sane h
  have hrun := (limited_new t'.toBackgroundCcConfig).run hc ops
  exact ⟨hrun.within, fun interval dest => hrun.paid_le hc interval dest⟩

def somePeer : SocketAddr := .v4 1 9000

/-- The default knobs, one peer, and a packet after a refill of one millisecond. -/
theorem default_within_limits :
    let cc := Machine.run step (.new Advanced.CongestionTuning.default.toBackgroundCcConfig) [.ensurePeer somePeer]
    let events := trace step cc [.refillAllTokens (1 / 1000), .send somePeer 1500 0]
    paidKnown somePeer 24000 events = 1500 ∧
      paidKnown somePeer 24000 events ≤ cc.tokens somePeer + earned somePeer events := by
  have hclamp : Advanced.CongestionTuning.default.clampRateKnobs = some .default := by decide +kernel
  exact ⟨by decide +kernel, (within_limits hclamp [.ensurePeer somePeer]).2 _ somePeer⟩

/-- A packet to a peer that was removed is sent without any tokens. -/
theorem removed_peer_unpaid :
    let cc := Machine.run step (.new Advanced.CongestionTuning.default.toBackgroundCcConfig) [.ensurePeer somePeer]
    let events := trace step cc [.removePeer somePeer, .send somePeer 1000 0]
    Advanced.CongestionTuning.default.clampRateKnobs = some .default ∧ (cc.peers.lookup somePeer).isSome = true ∧
      ¬ paid somePeer 24000 events ≤ cc.tokens somePeer + earned somePeer events := by
  refine ⟨by decide +kernel, by decide +kernel, ?_⟩
  decide +kernel

end BackgroundCcEngine

/-! ## Congestion signals -/

structure BackgroundCcConfig.Lowering (cfg : BackgroundCcConfig) : Prop where
  loss_le_one : cfg.lossMultiplicativeDecrease ≤ 1
  decrease_le_one : cfg.minDecreaseFactor ≤ 1
  anchor_le_decouple : cfg.deliveryAnchorFactor ≤ cfg.deliveryDecoupleRatio

theorem Advanced.CongestionTuning.lowering {t t' : CongestionTuning} (h : t.clampRateKnobs = some t') :
    t'.toBackgroundCcConfig.Lowering := by
  obtain ⟨maxRate, _, h⟩ := Option.bind_eq_some_iff.mp h
  obtain ⟨initial, _, h⟩ := Option.bind_eq_some_iff.mp h
  cases h
  have hloss := (clampTo_mem t.lossMultiplicativeDecrease (by norm_num : (3 / 10 : ℚ) ≤ 9 / 10)).2
  have hdecrease := (clampTo_mem t.minDecreaseFactor (by norm_num : (1 / 10 : ℚ) ≤ 9 / 10)).2
  have hanchor := (clampTo_mem t.deliveryAnchorFactor (by norm_num : (1 / 2 : ℚ) ≤ 99 / 100)).2
  have hdecouple := (clampTo_mem t.deliveryDecoupleRatio (by norm_num : (105 / 100 : ℚ) ≤ 3)).1
  exact ⟨hloss.trans (by norm_num), hdecrease.trans (by norm_num), hanchor.trans (le_trans (by norm_num) hdecouple)⟩

namespace PeerCcState

section
variable {cfg : BackgroundCcConfig} {st : PeerCcState} (hl : cfg.Lowering)
include hl

theorem delayUpdate_le (hqd : qdMs < 0 ∨ 1 < delayRatio cfg qdMs) (hrate : 0 ≤ rate) :
    delayUpdate cfg qdMs rate ≤ rate := by
  unfold delayUpdate
  split
  · exact le_refl _
  rename_i hknown
  rw [if_neg (not_le.mpr (hqd.resolve_left hknown))]
  exact mul_le_of_le_one_right hrate (clampQ_mem _ hl.decrease_le_one).2

variable (hmin : cfg.minRateBps ≤ st.rateBps)
include hmin

theorem anchor_le (h : st.anchor cfg = some rate) : rate ≤ st.rateBps := by
  obtain ⟨d, hd, rfl⟩ := Option.map_eq_some_iff.mp h
  obtain ⟨_, hfar⟩ := Option.filter_eq_some_iff.mp hd
  simp only [Bool.and_eq_true, decide_eq_true_eq] at hfar
  refine max_le hmin ((min_le_left _ _).trans ?_)
  exact (mul_le_mul_of_nonneg_left hl.anchor_le_decouple hfar.1.le).trans hfar.2.le

variable (hpos : 0 < cfg.minRateBps)
include hpos

theorem lossRate_mem (actionable : Bool) : 0 ≤
    (if actionable then max (st.rateBps * cfg.lossMultiplicativeDecrease) cfg.minRateBps else st.rateBps) ∧
    (if actionable then max (st.rateBps * cfg.lossMultiplicativeDecrease) cfg.minRateBps else st.rateBps) ≤
    st.rateBps := by
  have hrate : 0 ≤ st.rateBps := hpos.le.trans hmin
  split
  · exact ⟨hpos.le.trans (le_max_right _ _), max_le (mul_le_of_le_one_right hrate hl.loss_le_one) hmin⟩
  exact ⟨hrate, le_refl _⟩

end

end PeerCcState

end ConnectUnit
