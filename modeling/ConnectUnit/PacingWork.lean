import ConnectUnit.PacingRequeue

/-!
# Work conservation

A selection comes back with nothing only if nothing may leave: no control packet and no retransmission waits, and
congestion control holds back every peer that has data.
-/

open Machine (run)
open Search (Outcome orElse orElse_none orElse_some)

namespace ConnectUnit.Pacing

variable {n turns left : Nat} {c : PopClock} {e : PacingEngine}

namespace PeerDataQueue

theorem exists_popData_of_isEmpty {q : PeerDataQueue} (h : q.isEmpty = false) (priorityOn : Bool) (now : Instant) :
    ∃ q' entry, q.popData priorityOn now = (q', some entry) ∧ entry ∈ q.small ++ q.bulk := by
  have htakes := q.takes_popData priorityOn now
  unfold Takes at htakes
  cases hentry : (q.popData priorityOn now).2 with
  | none =>
    rw [hentry] at htakes
    rw [(isEmpty_iff q).mpr htakes.1] at h
    cases h
  | some entry =>
    rw [hentry] at htakes
    refine ⟨(q.popData priorityOn now).1, entry, Prod.ext rfl hentry, ?_⟩
    rcases htakes with ⟨hsmall, _⟩ | ⟨hbulk, _⟩
    · simp [hsmall]
    simp [hbulk]

end PeerDataQueue

namespace PacingEngine

/-! ## A peer that may send -/

/-- The data packets have a length, and it is one that two quanta cover. -/
def Sized (e : PacingEngine) : Prop :=
  ∀ dest, ∀ entry ∈ (e.lanes dest).1 ++ (e.lanes dest).2, 0 < entry.pkt.length ∧ entry.pkt.length ≤ 3000

/-- Congestion control refuses the front packet of every peer, after the wait of the longer waiting of its lanes. -/
def HeldBack (e : PacingEngine) (now : Instant) : Prop :=
  ∀ dest, (e.peerQueue dest).isEmpty = false → e.backgroundCcCanSend dest
    ((e.peerQueue dest).frontLen e.priorityOn now) ((e.peerQueue dest).holSojournMs now) = false

structure Willing (e : PacingEngine) (now : Instant) (i : Nat) (x : SocketAddr) (q : PeerDataQueue) : Prop where
  get : e.peerQueues.getIndex i = some (x, q)
  pos : 0 < q.frontLen e.priorityOn now
  le : q.frontLen e.priorityOn now ≤ 3000
  send : e.backgroundCcCanSend x (q.frontLen e.priorityOn now) (q.holSojournMs now) = true

section
variable {e e' : PacingEngine} {now : Instant} {i : Nat} {x : SocketAddr} {q : PeerDataQueue}

theorem exists_willing (hs : e.Sized) (h : ¬ e.HeldBack now) : ∃ i x q, Willing e now i x q := by
  unfold HeldBack at h
  push Not at h
  obtain ⟨x, hne, hsend⟩ := h
  obtain ⟨i, hget⟩ := exists_position hne
  obtain ⟨_, entry, hpop, hmem⟩ := PeerDataQueue.exists_popData_of_isEmpty hne e.priorityOn now
  have hlen := (e.peerQueue x).length_of_popData _ _ (congrArg Prod.snd hpop)
  have hsized := hs x entry hmem
  rw [hlen] at hsized
  exact ⟨i, x, e.peerQueue x, hget, hsized.1, hsized.2, by simpa using hsend⟩

theorem Willing.of_config (h : Willing e now i x q) (hconfig : e'.config = e.config)
    (hcc : e'.backgroundCc = e.backgroundCc)
    (hget : e'.peerQueues.getIndex i = some (x, { q with deficit := n })) :
    Willing e' now i x { q with deficit := n } := by
  have hprio : e'.priorityOn = e.priorityOn := congrArg PacingConfig.drrSmallPacketPriority hconfig
  have hsend : e'.backgroundCcCanSend = e.backgroundCcCanSend := by
    unfold backgroundCcCanSend
    rw [hcc]
  have hlen := q.frontLen_credit e'.priorityOn now n
  rw [hprio] at hlen
  refine ⟨hget, ?_, ?_, ?_⟩
  · rw [hprio, hlen]
    exact h.pos
  · rw [hprio, hlen]
    exact h.le
  rw [hprio, hlen, hsend]
  exact h.send

theorem Willing.servePeerAt (h : Willing e now i x q) : (e.servePeerAt i now).2 ≠ none := by
  obtain ⟨q', entry, hpop, _⟩ := q.exists_popData _ _ h.pos
  unfold PacingEngine.servePeerAt
  rw [h.get]
  dsimp only
  rw [if_pos h.send, popPeerAt_snd h.get, hpop]
  simp

/-! ## The ways through the peers -/

theorem Willing.popPeersInOrder (h : Willing e now i x q) : (e.popPeersInOrder now).2 ≠ none := by
  intro hnone
  unfold PacingEngine.popPeersInOrder at hnone
  rw [Search.untilSome_snd (fun _ => servePeerAt_none), List.findSome?_eq_none_iff] at hnone
  exact h.servePeerAt (hnone i (List.mem_range.mpr (lt_size h.get)))

structure Pending (now : Instant) (i : Nat) (x : SocketAddr) (turns left : Nat) (q : PeerDataQueue)
    (e : PacingEngine) : Prop
    extends Willing e now i x q where
  room : e.drrCursor + left < 2 ^ 64
  turns : visits e.peerQueues.size i e.drrCursor + turns ≤ visits e.peerQueues.size i (e.drrCursor + left)

theorem visits_round (hi : i < n) {c k : Nat} : visits n i (c + n * k) = visits n i c + k := by
  rw [visits_eq hi, visits_eq hi, Nat.add_mul_div_left _ _ (Nat.zero_lt_of_lt hi), Nat.add_mul_mod_self_left]
  omega

theorem Willing.pending (h : Willing e now i x q) {k : Nat} (hroom : e.drrCursor + e.peerQueues.size * k < 2 ^ 64) :
    Pending now i x k (e.peerQueues.size * k) q e :=
  ⟨h, hroom, Nat.le_of_eq (visits_round (lt_size h.get)).symm⟩

theorem Pending.turns_eq_zero (h : Pending now i x turns 0 q e) : turns = 0 := by
  have hturns := h.turns
  rw [Nat.add_zero] at hturns
  omega

theorem VisitFrame.pending (hframe : VisitFrame e e') (h : Pending now i x turns (left + 1) q e)
    (hpos : 0 < turns) (hget : e'.peerQueues.getIndex i = some (x, { q with deficit := n })) :
    Pending now i x (turns - if e.cursorIndex = i then 1 else 0) left { q with deficit := n } e' := by
  have hroom := h.room
  have hturns := h.turns
  have hcursor : e'.drrCursor = e.drrCursor + 1 := by
    rw [hframe.cursor]
    exact Nat.mod_eq_of_lt (by omega)
  refine ⟨h.toWilling.of_config hframe.config hframe.cc hget, by omega, ?_⟩
  rw [hcursor, hframe.size, visits_drrCursor, show e.drrCursor + 1 + left = e.drrCursor + (left + 1) by omega]
  split <;> omega

theorem Pending.roundRobin (h : Pending now i x 1 (left + 1) q e) (hnone : (e.roundRobinVisit now).2 = none) : Pending
    now i x 1 left q (e.roundRobinVisit now).1 := by
  have hwilling : Willing e.advanceCursor now i x q := ⟨h.get, h.pos, h.le, h.send⟩
  have hi : e.cursorIndex ≠ i := by
    intro hi
    apply hwilling.servePeerAt
    rw [← hi]
    exact hnone
  have hframe : VisitFrame e e.advanceCursor := ⟨rfl, rfl, rfl, rfl, rfl, rfl, rfl, fun _ _ => rfl⟩
  have hnext := hframe.pending h (n := q.deficit) Nat.one_pos h.get
  rw [if_neg hi] at hnext
  unfold roundRobinVisit at hnone ⊢
  rw [servePeerAt_none hnone]
  exact hnext

theorem Willing.popPeersRoundRobin (h : Willing e now i x q) (hroom : e.drrCursor + e.peerQueues.size < 2 ^ 64) :
    (e.popPeersRoundRobin now).2 ≠ none := by
  intro hnone
  have hsearch : Outcome (Pending now i x 1 0 q) (fun _ _ => True) (e.popPeersRoundRobin now) := by
    refine Outcome.untilSome_left (I := fun left => Pending now i x 1 left q) (fun left s _ hs => ?_) ?_
    · unfold Outcome
      split
      · trivial
      exact hs.roundRobin (by assumption)
    rw [List.length_range]
    have hround := h.pending (k := 1) (by rwa [Nat.mul_one])
    rwa [Nat.mul_one] at hround
  exact absurd (hsearch.of_none hnone).turns_eq_zero (by decide)

theorem minDrrQuantum_le (cfg : PacingConfig) (rttMs refMs : ℚ) : 1500 ≤ cfg.scaledDrrQuantum rttMs refMs := by
  unfold PacingConfig.scaledDrrQuantum
  dsimp only
  split <;> exact Nat.le_max_right _ _

def Saving (now : Instant) (i : Nat) (x : SocketAddr) (left : Nat) (e : PacingEngine) : Prop :=
  ∃ q turns, Pending now i x turns left q e ∧ 0 < turns ∧ 3000 ≤ q.deficit + 1500 * turns

theorem Saving.drrVisit (h : Saving now i x (left + 1) e) (hnone : (e.drrVisit now).2 = none) :
    Saving now i x left (e.drrVisit now).1 := by
  obtain ⟨q, turns, hp, hpos, hcredit⟩ := h
  have hframe := visitFrame_drrVisit e now
  by_cases hi : e.cursorIndex = i
  · have hget := hp.get
    rw [← hi] at hget
    -- the turn of the peer adds a quantum, which is not enough yet
    obtain ⟨hlt, hkept⟩ := (drrVisit_self hget now hp.send hp.pos).of_none hnone
    rw [hi] at hkept
    have hnext := hframe.pending hp hpos hkept
    rw [if_pos hi] at hnext
    have hle := hp.le
    have hquantum := minDrrQuantum_le e.config q.rttMs e.cachedRttRefMs
    have hcredit' : e.creditAfter q now = min (q.deficit + e.config.scaledDrrQuantum q.rttMs e.cachedRttRefMs)
      (max (4 * e.config.scaledDrrQuantum q.rttMs e.cachedRttRefMs) (q.frontLen e.priorityOn now)) := rfl
    refine ⟨_, turns - 1, hnext, ?_, ?_⟩
    · omega
    show 3000 ≤ e.creditAfter q now + 1500 * (turns - 1)
    omega
  · have hget := (hframe.others i (Ne.symm hi)).trans hp.get
    have hnext := hframe.pending hp (n := q.deficit) hpos hget
    rw [if_neg hi] at hnext
    exact ⟨q, turns, hnext, hpos, hcredit⟩

theorem Willing.popPeersDrr (h : Willing e now i x q) (hroom : e.drrCursor + e.peerQueues.size * 2 < 2 ^ 64)
    (ha : e.Accounts) : (e.popPeersDrr now).2 ≠ none := by
  have hsize := Nat.ne_of_gt (Nat.zero_lt_of_lt (lt_size h.get))
  unfold PacingEngine.popPeersDrr
  rw [if_neg (by simpa using ⟨hsize, ha.nonEmptyPeers_ne_zero h.get h.pos⟩)]
  intro hnone
  have hsearch : Outcome (Saving now i x 0) (fun _ _ => True)
      (Search.untilSome (fun e _ => e.drrVisit now) (List.range (e.peerQueues.size * 2)) e) := by
    refine Outcome.untilSome_left (I := Saving now i x) (fun left s _ hs => ?_) ?_
    · unfold Outcome
      split
      · trivial
      exact hs.drrVisit (by assumption)
    rw [List.length_range]
    exact ⟨q, 2, h.pending hroom, by decide, by omega⟩
  obtain ⟨q, turns, hp, hpos, _⟩ := hsearch.of_none hnone
  exact absurd hp.turns_eq_zero (Nat.ne_of_gt hpos)

/-! ## Every selection -/

theorem popWith_ne_none {popPeers : PacingEngine → Instant → PacingEngine × Option NextPacket}
    (h : ∀ n, (popPeers { e with interleaveCounter := n } c.now).2 ≠ none) : (e.popWith popPeers c).2 ≠ none := by
  have hfound {r : PacingEngine × Option NextPacket} {next : PacingEngine → PacingEngine × Option NextPacket}
      (hr : r.2 ≠ none) : (orElse r next).2 ≠ none := by
    obtain ⟨item, hitem⟩ := Option.ne_none_iff_exists'.mp hr
    rw [orElse_some hitem]
    exact hr
  unfold popWith popRetransmitForSend
  split
  · simp [orElse]
  rw [orElse_none]
  unfold tryPopControlInterleaved popControlForSend
  dsimp only
  split
  · split
    · simp [orElse]
    · rw [orElse_none]
      exact hfound (h _)
  rw [orElse_none]
  exact hfound (h _)

theorem Willing.popNextApd (h : Willing e now i x q) (ha : e.Accounts)
    (hroom : e.drrCursor + e.peerQueues.size * 2 < 2 ^ 64)
    {freezeDrr : Bool} (hc : c.now = now) : (e.popNextApd freezeDrr c).2 ≠ none := by
  -- counting calls for control packets leaves the peer as it is
  have hcount (n : Nat) : Willing { e with interleaveCounter := n } now i x q := ⟨h.get, h.pos, h.le, h.send⟩
  have hbooks (n : Nat) : Accounts { e with interleaveCounter := n } := ⟨ha.total, ha.nonEmpty, ha.dropped⟩
  have hround : e.drrCursor + e.peerQueues.size < 2 ^ 64 := by omega
  unfold PacingEngine.popNextApd
  split
  · refine popWith_ne_none fun n => ?_
    rw [hc]
    exact (hcount n).popPeersRoundRobin hround
  refine popWith_ne_none fun n => ?_
  rw [hc]
  split
  · exact (hcount n).popPeersDrr hroom (hbooks n)
  exact (hcount n).popPeersInOrder

theorem HeldBack.selects_none (h : e.HeldBack now) (hc : e.controlQ = []) (hr : e.retransmitQ = [])
    {r : PacingEngine × Option NextPacket} (hs : Selects now e r) : r.2 = none := by
  cases hr2 : r.2 with
  | none => rfl
  | some item =>
    obtain ⟨e₁, hglide, htake⟩ := hs.of_some hr2
    have hsame := Glides.alike hglide
    generalize r.1 = e₂ at htake
    cases htake with
    | control hq =>
      rw [hsame.control, hc] at hq
      cases hq
    | retransmit hq =>
      rw [hsame.retransmit, hr] at hq
      cases hq
    | @data idx dest q q' entry hget hpop hcc =>
      obtain ⟨n, hq⟩ := Glides.peerQueue hglide dest
      rw [peerQueue_of_getIndex hget] at hq
      subst hq
      have hne : (e.peerQueue dest).isEmpty = false := by
        rw [← Bool.not_eq_true]
        intro hempty
        rw [PeerDataQueue.popData_credit, PeerDataQueue.popData, if_pos hempty] at hpop
        cases hpop
      rw [hsame.canSend, hsame.priorityOn, PeerDataQueue.frontLen_credit] at hcc
      exact absurd ((h dest hne).symm.trans hcc) (by decide)

theorem Accounts.popNextApd_none_iff (ha : e.Accounts) (hs : e.Sized)
    (hroom : e.drrCursor + e.peerQueues.size * 2 < 2 ^ 64) {freezeDrr : Bool} :
    (e.popNextApd freezeDrr c).2 = none ↔ e.controlQ = [] ∧ e.retransmitQ = [] ∧ e.HeldBack c.now := by
  refine ⟨fun hnone => ⟨?_, ?_, ?_⟩, fun h => h.2.2.selects_none h.1 h.2.1 (selects_popNextApd e freezeDrr c)⟩
  · have hlast : (e.popNextApd freezeDrr c).1.controlQ = [] := by
      unfold popNextApd at *
      split
      · rename_i hf
        rw [if_pos hf] at hnone
        exact (popWith_exhausts).of_none hnone
      rename_i hf
      rw [if_neg hf] at hnone
      exact (popWith_exhausts).of_none hnone
    rw [← (Glides.alike ((selects_popNextApd e freezeDrr c).of_none hnone)).control, hlast]
  · by_contra hr
    obtain ⟨p, rest, hq⟩ := List.exists_cons_of_ne_nil hr
    have hfirst : e.popRetransmitForSend.2 = some (.control p) := by
      unfold popRetransmitForSend
      rw [hq]
    unfold popNextApd popNext popWith at hnone
    rw [orElse_some hfirst, orElse_some hfirst, ite_self, hfirst] at hnone
    cases hnone
  by_contra hheld
  obtain ⟨i, x, q, hw⟩ := exists_willing hs hheld
  exact hw.popNextApd ha hroom rfl hnone

end

/-! ## Reachable states -/

/-- A call of the engine, with those that change the session or its congestion control. -/
inductive Call where
  | op (op : Op)
  | resetSessionRuntime (now : Instant)
  | setBackgroundCcConfig (cc : BackgroundCcConfig)
  | removeCcPeer (dest : SocketAddr)

def serve (e : PacingEngine) : Call → PacingEngine × List Move
  | .op op => e.step op
  | .resetSessionRuntime now => (e.resetSessionRuntime now, [])
  | .setBackgroundCcConfig cc => (e.setBackgroundCcConfig cc, [])
  | .removeCcPeer dest => (e.removeCcPeer dest, [])

theorem accounts_serve (h : e.Accounts) {call : Call} : (e.serve call).1.Accounts := by
  cases call with
  | op op => exact (moves_step e op).accounts h
  | resetSessionRuntime now => exact ⟨rfl, rfl, rfl⟩
  | setBackgroundCcConfig cc => exact ⟨h.total, h.nonEmpty, h.dropped⟩
  | removeCcPeer dest => exact ⟨h.total, h.nonEmpty, h.dropped⟩

/-- In every state that the calls lead to, a selection comes back with nothing if and only if nothing may leave. -/
theorem selection_work_conserving (start : Instant) (calls : List Call) (hs : (run serve (.new start) calls).Sized)
    (hroom : (run serve (.new start) calls).drrCursor +
      (run serve (.new start) calls).peerQueues.size * 2 < 2 ^ 64) (freezeDrr : Bool) (c : PopClock) :
    ((run serve (.new start) calls).popNextApd freezeDrr c).2 = none ↔
      (run serve (.new start) calls).controlQ = [] ∧ (run serve (.new start) calls).retransmitQ = [] ∧
        (run serve (.new start) calls).HeldBack c.now :=
  (Machine.run_invariant accounts_new (fun _ _ h => accounts_serve h)).popNextApd_none_iff hs hroom

theorem forall_peerQueue {P : SocketAddr → PeerDataQueue → Prop} (hnew : ∀ dest, P dest .new)
    (h : ∀ p ∈ e.peerQueues.entries, P p.1 p.2) (dest : SocketAddr) : P dest (e.peerQueue dest) := by
  unfold peerQueue
  cases hidx : e.peerQueues.indexOf? dest with
  | none =>
    rw [IndexMap.get?_eq_none_of_indexOf? hidx]
    exact hnew dest
  | some i =>
    obtain ⟨q, hq⟩ := IndexMap.getIndex_of_indexOf? hidx
    rw [IndexMap.get?_of_getIndex hq]
    exact h (dest, q) (List.mem_of_getElem? hq)

theorem sized_of_entries (h : ∀ p ∈ e.peerQueues.entries, ∀ entry ∈ p.2.small ++ p.2.bulk,
    0 < entry.pkt.length ∧ entry.pkt.length ≤ 3000) : e.Sized := by
  apply forall_peerQueue (P := fun _ q => ∀ entry ∈ q.small ++ q.bulk, 0 < entry.pkt.length ∧ entry.pkt.length ≤ 3000)
  · intro dest entry hentry
    cases hentry
  exact h

def strictCc : BackgroundCcConfig := { BackgroundCcConfig.default with enabled := true, holEscapeMs := 10 }

/-- One packet waits for tokens. -/
def tokenless : List Call :=
  [.setBackgroundCcConfig strictCc, .op (.enqueuePeer (packetOf 1000) longPeer none none 0)]

theorem tokenless_selects_none : (run serve (.new 0) tokenless).Sized ∧
    ((run serve (.new 0) tokenless).popNextApd false ⟨0, 0⟩).2 = none ∧
    ((run serve (.new 0) tokenless).popNextApd true ⟨0, 0⟩).2 = none := by
  have hs : (run serve (.new 0) tokenless).Sized := sized_of_entries (by decide +kernel)
  have hheld : (run serve (.new 0) tokenless).HeldBack 0 := by
    apply forall_peerQueue (P := fun dest q => q.isEmpty = false →
      (run serve (.new 0) tokenless).backgroundCcCanSend dest (q.frontLen true 0) (q.holSojournMs 0) = false)
    · intro dest h
      cases h
    decide +kernel
  have hnone (freezeDrr : Bool) :=
    (selection_work_conserving 0 tokenless hs (by decide +kernel) freezeDrr ⟨0, 0⟩).mpr ⟨rfl, rfl, hheld⟩
  exact ⟨hs, hnone false, hnone true⟩

/-- Congestion control refuses every front packet after its own wait. -/
def FrontHeldBack (e : PacingEngine) (now : Instant) : Prop :=
  ∀ dest, ∀ entry ∈ ((e.peerQueue dest).popData e.priorityOn now).2,
    e.backgroundCcCanSend dest entry.pkt.length (elapsedMs now entry.enqueuedAt) = false

/-- A short packet comes four milliseconds before a long one. -/
def unevenLanes : List Call :=
  [.setBackgroundCcConfig strictCc, .op (.enqueuePeer (packetOf 100) longPeer none none 0),
    .op (.enqueuePeer (packetOf 1000) longPeer none none (millis 4))]

/-- After 8 milliseconds the long packet goes first, and the wait of the short one lets it go. -/
theorem front_sent_on_wait_of_other_lane : (run serve (.new 0) unevenLanes).Sized ∧
    (run serve (.new 0) unevenLanes).drrCursor + (run serve (.new 0) unevenLanes).peerQueues.size * 2
    < 2 ^ 64 ∧ (run serve (.new 0) unevenLanes).controlQ = [] ∧
    (run serve (.new 0) unevenLanes).retransmitQ = [] ∧ (run serve (.new 0) unevenLanes).FrontHeldBack
    (millis 12) ∧ ((run serve (.new 0) unevenLanes).popNextApd false ⟨millis 12, millis 12⟩).2 = some
    (.data (packetOf 1000) longPeer (millis 4)) ∧
    ((run serve (.new 0) unevenLanes).popNextApd true ⟨millis 12, millis 12⟩).2 = some
    (.data (packetOf 1000) longPeer (millis 4)) := by
  refine ⟨sized_of_entries (by decide +kernel), by decide +kernel, rfl, rfl, ?_, by decide +kernel, by decide +kernel⟩
  apply forall_peerQueue (P := fun dest q => ∀ entry ∈ (q.popData true (millis 12)).2,
    (run serve (.new 0) unevenLanes).backgroundCcCanSend dest entry.pkt.length
      (elapsedMs (millis 12) entry.enqueuedAt) = false)
  · intro dest entry h
    cases h
  decide +kernel

end PacingEngine

end ConnectUnit.Pacing
