import Mathlib.Logic.Relation
import ConnectUnit.PacingTick

/-!
# What a selection can do

Before `pop_next_apd` takes a packet it only moves the turn counters and the credits of peers (`Glide`); then it takes
one packet from the front of a queue (`Take`).
-/

namespace ConnectUnit.Pacing

section
variable (q : PeerDataQueue) (priorityOn : Bool) (now : Instant)

theorem PeerDataQueue.popFifoByAge_credit {n : Nat} : ({ q with deficit := n } : PeerDataQueue).popFifoByAge =
    ({ q.popFifoByAge.1 with deficit := n }, q.popFifoByAge.2) := by
  unfold popFifoByAge
  dsimp only
  split
  · split <;> rfl
  · rfl
  · rfl
  · rfl

theorem PeerDataQueue.frontLen_credit (n : Nat) :
    ({ q with deficit := n } : PeerDataQueue).frontLen priorityOn now = q.frontLen priorityOn now := by
  unfold frontLen
  rw [popFifoByAge_credit]
  rfl

end

namespace PacingEngine

/-! ## The queue of a peer by its position -/

section
variable {e e' : PacingEngine} {i : Nat} {dest : SocketAddr} {q : PeerDataQueue}

theorem peerQueue_of_getIndex (h : e.peerQueues.getIndex i = some (dest, q)) : e.peerQueue dest = q := by
  unfold peerQueue
  rw [IndexMap.get?_of_getIndex h]
  rfl

theorem peerQueue_modifyAt (h : e.peerQueues.getIndex i = some (dest, q)) {f : PeerDataQueue → PeerDataQueue}
    (hpeers : e'.peerQueues = e.peerQueues.modifyAt i f) {x : SocketAddr} :
    e'.peerQueue x = if x = dest then f q else e.peerQueue x := by
  unfold peerQueue
  rw [hpeers, IndexMap.get?_modifyAt h]
  split <;> rfl

end

/-! ## The changes of a selection -/

inductive Glide (e : PacingEngine) : PacingEngine → Prop
  | count (n : Nat) : Glide e { e with interleaveCounter := n }
  | turn (n : Nat) : Glide e { e with drrCursor := n }
  | credit {idx : Nat} {dest : SocketAddr} {q : PeerDataQueue} (h : e.peerQueues.getIndex idx = some (dest, q))
    (n : Nat) :
      Glide e { e with peerQueues := e.peerQueues.modifyAt idx fun q => { q with deficit := n } }

abbrev Glides : PacingEngine → PacingEngine → Prop := Relation.ReflTransGen Glide

theorem Glides.peerQueue {e e' : PacingEngine} (h : Glides e e') (x : SocketAddr) :
    ∃ n, e'.peerQueue x = { e.peerQueue x with deficit := n } := by
  induction h with
  | refl => exact ⟨_, rfl⟩
  | tail _ hstep ih =>
    obtain ⟨m, hm⟩ := ih
    cases hstep with
    | count n => exact ⟨m, hm⟩
    | turn n => exact ⟨m, hm⟩
    | @credit idx dest q hget n =>
      rw [peerQueue_modifyAt hget (f := fun q => { q with deficit := n }) rfl]
      split
      · rename_i hx
        rw [← peerQueue_of_getIndex hget, ← hx, hm]
        exact ⟨n, rfl⟩
      · exact ⟨m, hm⟩

inductive Take (now : Instant) (e : PacingEngine) : NextPacket → PacingEngine → Prop
  | control {q : QueuedPacket} {rest : List QueuedPacket} (h : e.controlQ = q :: rest) :
      Take now e (.control q) { e with controlQ := rest, queuedPacketsTotal := e.queuedPacketsTotal - 1 }
  | retransmit {q : QueuedPacket} {rest : List QueuedPacket} (h : e.retransmitQ = q :: rest) :
      Take now e (.control q) { e with retransmitQ := rest, queuedPacketsTotal := e.queuedPacketsTotal - 1 }
  | data {idx : Nat} {dest : SocketAddr} {q q' : PeerDataQueue} {entry : QueuedData}
      (h : e.peerQueues.getIndex idx = some (dest, q)) (hpop : q.popData e.priorityOn now = (q', some entry))
      (hcc : e.backgroundCcCanSend dest (q.frontLen e.priorityOn now) (q.holSojournMs now) = true) :
      Take now e (.data entry.pkt dest entry.enqueuedAt) { e with
        peerQueues := e.peerQueues.modifyAt idx fun _ => q'
        queuedPacketsTotal := e.queuedPacketsTotal - 1
        nonEmptyPeers := if q'.isEmpty then e.nonEmptyPeers - 1 else e.nonEmptyPeers }

def Selects (now : Instant) (e : PacingEngine) : PacingEngine × Option NextPacket → Prop :=
  Search.Outcome (Glides e) fun e' item => ∃ e₁, Glides e e₁ ∧ Take now e₁ item e'

section
variable {now : Instant} {e e' : PacingEngine} {r : PacingEngine × Option NextPacket}

theorem selects_none : Selects now e (e, none) := Relation.ReflTransGen.refl

theorem Take.selects {item : NextPacket} (h : Take now e item e') : Selects now e (e', some item) := ⟨e, .refl, h⟩

theorem Selects.after (h : Glides e e') (hr : Selects now e' r) : Selects now e r := by
  unfold Selects Search.Outcome at *
  cases hr2 : r.2 with
  | none =>
    rw [hr2] at hr
    exact h.trans hr
  | some item =>
    rw [hr2] at hr
    obtain ⟨e₁, hglide, htake⟩ := hr
    exact ⟨e₁, h.trans hglide, htake⟩

theorem Selects.orElse {next : PacingEngine → PacingEngine × Option NextPacket} (hr : Selects now e r)
    (hnext : ∀ e, Selects now e (next e)) : Selects now e (Search.orElse r next) :=
  Search.Outcome.orElse hr fun e' he => (hnext e').after he

theorem selects_untilSome {ι : Type} {try' : PacingEngine → ι → PacingEngine × Option NextPacket}
    (htry : ∀ e i, Selects now e (try' e i)) {l : List ι} :
    Selects now e (Search.untilSome try' l e) :=
  Search.Outcome.untilSome (fun s i hs => (htry s i).after hs) .refl

end

/-! ## Every selection is one -/

section
variable (e : PacingEngine) (now : Instant)

theorem selects_popControlForSend : Selects now e e.popControlForSend := by
  unfold popControlForSend
  split
  · rename_i q rest h
    exact (Take.control h).selects
  exact selects_none

theorem selects_popRetransmitForSend : Selects now e e.popRetransmitForSend := by
  unfold popRetransmitForSend
  split
  · rename_i q rest h
    exact (Take.retransmit h).selects
  exact selects_none

theorem selects_tryPopControlInterleaved {aging : Instant} : Selects now e (e.tryPopControlInterleaved aging) := by
  unfold tryPopControlInterleaved
  have hcount : Glides e { e with interleaveCounter := (e.interleaveCounter + 1) % 256 } := .single (.count _)
  dsimp only
  split
  · exact (selects_popControlForSend _ now).after hcount
  exact hcount

theorem glides_advanceCursor : Glides e e.advanceCursor := .single (.turn _)

theorem selects_popPeerAt {idx : Nat} {dest : SocketAddr} {q : PeerDataQueue}
    (h : e.peerQueues.getIndex idx = some (dest, q))
    (hcc : e.backgroundCcCanSend dest (q.frontLen e.priorityOn now) (q.holSojournMs now) = true) :
    Selects now e (e.popPeerAt idx now) := by
  unfold popPeerAt
  rw [h]
  dsimp only
  split
  · exact selects_none
  rename_i entry hentry
  exact (Take.data h (Prod.ext rfl hentry) hcc).selects

theorem selects_servePeerAt {idx : Nat} : Selects now e (e.servePeerAt idx now) := by
  unfold servePeerAt
  split
  · exact selects_none
  rename_i dest q h
  split
  · rename_i hcc
    exact selects_popPeerAt e now h hcc
  exact selects_none

theorem selects_drrVisit : Selects now e (e.drrVisit now) := by
  unfold drrVisit
  refine Selects.after (glides_advanceCursor e) ?_
  dsimp only
  split
  · exact selects_none
  rename_i dest q h
  -- each way on sets the credit of the visited peer first
  have hcredit (n : Nat) := Relation.ReflTransGen.single (Glide.credit h n)
  split
  · exact hcredit 0
  split
  · exact hcredit _
  split
  · exact hcredit _
  rename_i hcc
  rw [Bool.not_eq_true', Bool.not_eq_false] at hcc
  have hlen := q.frontLen_credit e.priorityOn now
  refine (selects_popPeerAt _ now (IndexMap.getIndex_modifyAt h _) ?_).after (hcredit _)
  exact (congrArg (e.backgroundCcCanSend dest · (q.holSojournMs now)) (hlen _)).trans hcc

theorem selects_popPeersDrr : Selects now e (e.popPeersDrr now) := by
  unfold popPeersDrr
  split
  · exact selects_none
  exact selects_untilSome (fun e _ => selects_drrVisit e now)

theorem selects_popPeersInOrder : Selects now e (e.popPeersInOrder now) :=
  selects_untilSome (fun e _ => selects_servePeerAt e now)

theorem selects_popPeersRoundRobin : Selects now e (e.popPeersRoundRobin now) :=
  selects_untilSome (fun e _ => (selects_servePeerAt _ now).after (glides_advanceCursor e))

theorem selects_popWith {popPeers : PacingEngine → Instant → PacingEngine × Option NextPacket}
    (hpeers : ∀ e now, Selects now e (popPeers e now)) {c : PopClock} : Selects c.now e (e.popWith popPeers c) :=
  (selects_popRetransmitForSend e c.now).orElse fun e => (selects_tryPopControlInterleaved e c.now).orElse
    fun e => (hpeers e c.now).orElse fun e => selects_popControlForSend e c.now

theorem selects_popNext (c : PopClock) : Selects c.now e (e.popNext c) := by
  refine selects_popWith e (fun e now => ?_)
  split
  · exact selects_popPeersDrr e now
  exact selects_popPeersInOrder e now

theorem selects_popNextApd (freezeDrr : Bool) (c : PopClock) : Selects c.now e (e.popNextApd freezeDrr c) := by
  unfold popNextApd
  split
  · exact selects_popWith e selects_popPeersRoundRobin
  exact selects_popNext e c

end

/-! ## The loops of a tick -/

/-- The queue that a loop of the reserved prefix takes its packets from. -/
def reservedQueue (e : PacingEngine) (retransmit : Bool) : List QueuedPacket :=
  if retransmit then e.retransmitQ else e.controlQ

/-- A property that each attempt to send keeps. -/
structure TickRule (I : Ticking → Prop) : Prop where
  reserved : ∀ t retransmit q rest outcome n, I t → t.engine.budgetHasRoom = true →
    t.engine.reservedQueue retransmit = q :: rest →
      let r := (t.engine.withRest retransmit rest).trySendQueuedPacket q retransmit outcome n
      I ⟨r.1, if r.2.isSome then t.sent else t.sent ++ [q.packet]⟩
  idle : ∀ t freezeDrr c, I t → (t.engine.popNextApd freezeDrr c).2 = none →
    I { t with engine := (t.engine.popNextApd freezeDrr c).1 }
  burst : ∀ t freezeDrr c item outcome n, I t → t.engine.budgetHasRoom = true →
    (t.engine.popNextApd freezeDrr c).2 = some item →
      let r := (t.engine.popNextApd freezeDrr c).1.trySendNextPacket item outcome n
      I ⟨r.1, if r.2.isSome then t.sent else t.sent ++ [item.packet]⟩

section
variable {I : Ticking → Prop} (hI : TickRule I) {e : PacingEngine} {t : Ticking} {deadline : Instant} {answers : Answers}
variable {c : TickClock}
include hI

theorem TickRule.drainReserved {retransmit : Bool} {initial remaining : Nat} {clock : Nat → Instant}
    {queue : List QueuedPacket} (hqueue : t.engine.reservedQueue retransmit = queue) (h : I t) :
    I (drainReserved retransmit initial deadline clock answers queue remaining t).1 := by
  induction queue generalizing t remaining with
  | nil => exact h
  | cons q rest ih =>
    unfold PacingEngine.drainReserved
    dsimp only
    split
    · exact h
    rename_i hgo
    simp only [Bool.or_eq_true, not_or, Bool.not_eq_true', Bool.not_eq_false] at hgo
    have hsend := hI.reserved t retransmit q rest (answers t.sent.length) t.sent.length h hgo.1.1.2 hqueue
    dsimp only at hsend
    split
    · rename_i result hr
      rw [hr] at hsend
      exact hsend
    rename_i hr
    rw [hr] at hsend
    refine ih ?_ hsend
    generalize answers t.sent.length = outcome at hr ⊢
    cases outcome with
    | ok => cases retransmit <;> rfl
    | wouldBlock => exact nomatch hr
    | error => exact nomatch hr

theorem TickRule.sendBurst {freezeDrr : Bool} {n : Nat} (h : I t) :
    I (sendBurst freezeDrr deadline c answers n t).1 := by
  induction n generalizing t with
  | zero => exact h
  | succ n ih =>
    unfold PacingEngine.sendBurst
    dsimp only
    split
    · exact h
    rename_i hgo
    simp only [Bool.or_eq_true, not_or, Bool.not_eq_true', Bool.not_eq_false] at hgo
    split
    · rename_i hp
      exact hI.idle t freezeDrr _ h hp
    rename_i item hp
    have hsend := hI.burst t freezeDrr _ item (answers t.sent.length) t.sent.length h hgo.2 hp
    dsimp only at hsend
    split
    · rename_i result hr
      rw [hr] at hsend
      exact hsend
    rename_i hr
    rw [hr] at hsend
    exact ih hsend

theorem TickRule.tickWith (h : I ⟨(((e.refillBudget c.start).apdStep c.start c.drain).1.shedStaleBulkRr c.start
      (c.start + micros (max e.config.maxTickWorkUs 100)) c.shed).1, []⟩) :
    I ⟨(e.tickWith c answers).engine, (e.tickWith c answers).sent⟩ := by
  refine Search.orElse_fst (I := I) ?_ fun t h => hI.sendBurst h
  unfold drainReservedPrefix
  refine Search.orElse_fst (I := I) (hI.drainReserved rfl h) fun t h => ?_
  exact hI.drainReserved rfl h

end

end PacingEngine

end ConnectUnit.Pacing
