import ConnectUnit.PacingBudget
import ConnectUnit.PacingWork

/-!
# Order of the packets of a lane

A packet that could not be sent goes back to the front of the lane it came from, so a lane gives out its packets in
the order in which they came in; some of them are dropped on the way.
-/

open Machine (Each run trace)

namespace ConnectUnit.Pacing

variable {now deadline : Instant} {item : NextPacket} {answers : Answers} {t : Ticking} {clock : Nat → Instant}
variable {freezeDrr small : Bool} {c : TickClock} {x dest : SocketAddr} {log log' : List LaneEvent}
variable {batch : List QueuedData} {rttMs qdMs : Option ℚ}

namespace PeerDataQueue

def lane (q : PeerDataQueue) (small : Bool) : List QueuedData := if small then q.small else q.bulk

theorem lane_push (q : PeerDataQueue) (entry : QueuedData) (maxDepth : Nat) (priorityOn : Bool) (threshold : Nat)
    (small : Bool) : ((q.push entry maxDepth priorityOn threshold).1.lane small).Sublist
    (q.lane small ++ [entry].filter fun entry => isSmallPacket entry.pkt.length priorityOn threshold = small) := by
  have hback (q : PeerDataQueue) : (q.pushBackClassified entry priorityOn threshold).lane small =
      q.lane small ++ [entry].filter fun entry => isSmallPacket entry.pkt.length priorityOn threshold = small := by
    unfold pushBackClassified
    cases hclass : isSmallPacket entry.pkt.length priorityOn threshold <;> cases small <;> simp [lane, hclass]
  have hdrop : (q.dropOldestForCapacity.1.lane small).Sublist (q.lane small) := by
    unfold dropOldestForCapacity
    cases hq : q.bulk with
    | cons front bulk =>
      cases small with
      | true => exact .refl _
      | false =>
        show bulk.Sublist q.bulk
        rw [hq]
        exact List.sublist_cons_self front bulk
    | nil =>
      cases small with
      | true => exact List.tail_sublist q.small
      | false => exact List.nil_sublist _
  unfold push
  dsimp only
  split
  · rw [hback]
    exact hdrop.append_right _
  rw [hback]

end PeerDataQueue

namespace PacingEngine

/-! ## Packets in and out of the lanes -/

inductive LaneEvent where
  | queued (dest : SocketAddr) (entry : QueuedData)
  | sent (dest : SocketAddr) (entry : QueuedData)
  deriving DecidableEq

def LaneEvent.ofItem : NextPacket → List LaneEvent
  | .control _ => []
  | .data pkt dest enqueuedAt => [.sent dest ⟨pkt, enqueuedAt⟩]

def burstItems (freezeDrr : Bool) (deadline : Instant) (c : TickClock) (answers : Answers) :
    Nat → Ticking → List NextPacket
  | 0, _ => []
  | n + 1, t =>
    let sent := t.sent.length
    if deadline ≤ c.burst sent || !t.engine.budgetHasRoom then []
    else
      let picked := t.engine.popNextApd freezeDrr (c.pop sent)
      picked.2.elim [] fun item =>
        let r := picked.1.trySendNextPacket item (answers sent) sent
        if r.2.isSome then []
        else item :: burstItems freezeDrr deadline c answers n ⟨r.1, t.sent ++ [item.packet]⟩

variable (e : PacingEngine)

def tickPrefix (c : TickClock) (answers : Answers) : ApdDecision × Ticking × Option TickResult :=
  let deadline := c.start + micros (max e.config.maxTickWorkUs 100)
  let decision := (e.refillBudget c.start).apdStep c.start c.drain
  (decision.2, drainReservedPrefix c deadline answers ⟨(decision.1.shedStaleBulkRr c.start deadline c.shed).1, []⟩)

def tickItems (c : TickClock) (answers : Answers) : List NextPacket :=
  let r := e.tickPrefix c answers
  if r.2.2.isSome then []
  else burstItems r.1.freezeDrr (c.start + micros (max e.config.maxTickWorkUs 100)) c answers r.1.effectiveBurst r.2.1

def flow (call : Call) : PacingEngine × List LaneEvent :=
  ((e.serve call).1, match call with
    | .op (.enqueuePeer pkt dest _ _ now) => [.queued dest ⟨pkt, now⟩]
    | .op (.enqueueBatch dest pkts rttMs qdMs now) =>
      if (e.tryEnqueuePeerBatch dest pkts rttMs qdMs now).2 then (batchEntries pkts now).map (.queued dest) else []
    | .op (.tick c answers) => (e.tickItems c answers).flatMap LaneEvent.ofItem
    | _ => [])

section
variable (x : SocketAddr) (log : List LaneEvent)

def queuedTo : List QueuedData := log.filterMap fun
  | .queued dest entry => if dest = x then some entry else none
  | .sent _ _ => none

def sentTo : List QueuedData := log.filterMap fun
  | .sent dest entry => if dest = x then some entry else none
  | .queued _ _ => none

end

def lane (x : SocketAddr) (small : Bool) : List QueuedData := (e.peerQueue x).lane small

def ofLane (small : Bool) (l : List QueuedData) : List QueuedData :=
  l.filter fun entry => PeerDataQueue.isSmallPacket entry.pkt.length e.priorityOn e.threshold = small

/-! ## The items of a tick -/

theorem sent_sendBurst {n : Nat} : (sendBurst freezeDrr deadline c answers n t).1.sent = t.sent ++
    (burstItems freezeDrr deadline c answers n t).map NextPacket.packet := by
  induction n generalizing t with
  | zero => simp [sendBurst, burstItems]
  | succ n ih =>
    unfold sendBurst burstItems
    dsimp only
    split
    · simp
    cases hpick : (t.engine.popNextApd freezeDrr (c.pop t.sent.length)).2 with
    | none => simp
    | some item =>
      dsimp only [Option.elim]
      cases hsend : ((t.engine.popNextApd freezeDrr (c.pop t.sent.length)).1.trySendNextPacket item
          (answers t.sent.length) t.sent.length).2 with
      | none => simp [ih]
      | some result => simp

theorem sent_tickWith {e : PacingEngine} : (e.tickWith c answers).sent =
    (e.tickPrefix c answers).2.1.sent ++ (e.tickItems c answers).map NextPacket.packet := by
  unfold tickWith tickItems
  dsimp only
  show (Search.orElse (e.tickPrefix c answers).2 _).1.sent = _
  cases hr : (e.tickPrefix c answers).2.2 with
  | some result =>
    rw [Search.orElse_some hr]
    simp
  | none =>
    rw [Search.orElse_of_none hr]
    exact sent_sendBurst

/-! ## What a step does to the lanes -/

section
variable {e e' e'' : PacingEngine}

theorem queuedTo_append : queuedTo x (log ++ log') = queuedTo x log ++ queuedTo x log' := List.filterMap_append

theorem sentTo_append : sentTo x (log ++ log') = sentTo x log ++ sentTo x log' := List.filterMap_append

theorem queuedTo_map : queuedTo x (batch.map (.queued dest)) = if x = dest then batch else [] := by
  unfold queuedTo
  rw [List.filterMap_map]
  by_cases hx : x = dest
  · subst hx
    simp
  simp [hx, Ne.symm hx]

theorem sentTo_map : sentTo x (batch.map (.queued dest)) = [] := by
  unfold sentTo
  rw [List.filterMap_map]
  simp

structure Flows (e e' : PacingEngine) (log : List LaneEvent) : Prop where
  priorityOn : e'.priorityOn = e.priorityOn
  threshold : e'.threshold = e.threshold
  placed : Placed e'
  order : ∀ x small, (e.ofLane small (sentTo x log) ++ e'.lane x small).Sublist
    (e.lane x small ++ e.ofLane small (queuedTo x log))

theorem ofLane_eq (hp : e'.priorityOn = e.priorityOn) (ht : e'.threshold = e.threshold) : e'.ofLane = e.ofLane := by
  unfold ofLane
  rw [hp, ht]

theorem ofLane_append {l l' : List QueuedData} :
    e.ofLane small (l ++ l') = e.ofLane small l ++ e.ofLane small l' := List.filter_append _ _

theorem placed_iff : Placed e ↔ ∀ x small, ∀ entry ∈ e.lane x small,
    PeerDataQueue.isSmallPacket entry.pkt.length e.priorityOn e.threshold = small := by
  constructor
  · intro h x small
    cases small with
    | true => exact (h x).1
    | false => exact (h x).2
  intro h x
  exact ⟨h x true, h x false⟩

theorem Flows.trans (h : Flows e e' log) (h' : Flows e' e'' log') : Flows e e'' (log ++ log') := by
  refine ⟨h'.priorityOn.trans h.priorityOn, h'.threshold.trans h.threshold, h'.placed, fun x small => ?_⟩
  have hfirst := h.order x small
  have hlast := h'.order x small
  rw [ofLane_eq h.priorityOn h.threshold] at hlast
  rw [sentTo_append, queuedTo_append, ofLane_append, ofLane_append, List.append_assoc,
    ← List.append_assoc (e.lane x small)]
  refine (hlast.append_left _).trans ?_
  rw [← List.append_assoc]
  exact hfirst.append_right _

section
variable (hp : Placed e) (hpriority : e'.priorityOn = e.priorityOn) (hthreshold : e'.threshold = e.threshold)
include hp hpriority hthreshold

theorem flows_arrival (dest : SocketAddr) (batch : List QueuedData)
    (hl : ∀ x small, (e'.lane x small).Sublist (e.lane x small ++ e.ofLane small (if x = dest then batch else []))) :
    Flows e e' (batch.map (.queued dest)) := by
  refine ⟨hpriority, hthreshold, placed_iff.mpr fun x small entry hentry => ?_, fun x small => ?_⟩
  · rw [hpriority, hthreshold]
    rcases List.mem_append.mp ((hl x small).subset hentry) with hold | hnew
    · exact placed_iff.mp hp x small entry hold
    exact of_decide_eq_true (List.mem_filter.mp hnew).2
  rw [sentTo_map, queuedTo_map]
  exact hl x small

theorem flows_loss (hl : ∀ x small, (e'.lane x small).Sublist (e.lane x small)) : Flows e e' [] := by
  refine flows_arrival hp hpriority hthreshold (.v4 0 0) [] fun x small => ?_
  rw [ite_self, ofLane, List.filter_nil, List.append_nil]
  exact hl x small

end

theorem lane_of_lanes (h : e'.lanes x = e.lanes x) : e'.lane x small = e.lane x small := by
  obtain ⟨hsmall, hbulk⟩ := Prod.mk.inj h
  unfold lane PeerDataQueue.lane
  rw [hsmall, hbulk]

section
variable (hp : Placed e) (hconfig : e'.config = e.config)
include hp hconfig

theorem flows_same (hl : ∀ x, e'.lanes x = e.lanes x) : Flows e e' [] := by
  refine flows_loss hp (congrArg PacingConfig.drrSmallPacketPriority hconfig)
    (congrArg PacingConfig.drrSmallPacketThresholdBytes hconfig) fun x small => ?_
  rw [lane_of_lanes (hl x)]

theorem flows_of_peers (hpeers : e'.peerQueues = e.peerQueues) : Flows e e' [] := by
  refine flows_same hp hconfig fun x => ?_
  unfold lanes peerQueue
  rw [hpeers]

theorem flows_taken {q' : PeerDataQueue}
    {entry : QueuedData} (htakes : PeerDataQueue.Takes (e.peerQueue dest) (q', some entry))
    (hpeers : ∀ x, e'.peerQueue x = if x = dest then q' else e.peerQueue x) : Flows e e' [.sent dest entry] := by
  have hpri : e'.priorityOn = e.priorityOn := congrArg PacingConfig.drrSmallPacketPriority hconfig
  have hthr : e'.threshold = e.threshold := congrArg PacingConfig.drrSmallPacketThresholdBytes hconfig
  have hlane (x : SocketAddr) (small : Bool) : e.ofLane small (sentTo x [.sent dest entry]) ++ e'.lane x small =
      e.lane x small := by
    unfold lane PeerDataQueue.lane
    rw [hpeers]
    by_cases hx : x = dest
    · subst hx
      rw [if_pos rfl, show sentTo x [.sent x entry] = [entry] by simp [sentTo]]
      have hclass := placed_iff.mp hp x
      unfold lane PeerDataQueue.lane at hclass
      rcases htakes with ⟨hsmall, hbulk⟩ | ⟨hbulk, hsmall⟩
      · have hentry := hclass true entry (by rw [hsmall]; exact List.mem_cons_self)
        cases small with
        | true => simp [ofLane, hentry, hsmall]
        | false => simpa [ofLane, hentry] using hbulk
      have hentry := hclass false entry (by rw [hbulk]; exact List.mem_cons_self)
      cases small with
      | true => simpa [ofLane, hentry] using hsmall
      | false => simp [ofLane, hentry, hbulk]
    · rw [if_neg hx, show sentTo x [.sent dest entry] = [] by simp [sentTo, Ne.symm hx]]
      rfl
  refine ⟨hpri, hthr, placed_iff.mpr fun x small other hother => ?_, fun x small => ?_⟩
  · rw [hpri, hthr]
    exact placed_iff.mp hp x small other (hlane x small ▸ List.mem_append_right _ hother)
  rw [hlane]
  exact List.sublist_append_left _ _

end

/-! ## Sending -/

theorem flows_trySendNextPacket (hp : Placed e) (hsel : Selects now e (e', some item)) (outcome : SendOutcome)
    (sent : Nat) : Flows e (e'.trySendNextPacket item outcome sent).1
    (if (e'.trySendNextPacket item outcome sent).2.isSome then [] else LaneEvent.ofItem item) := by
  obtain ⟨e₁, hglide, htake⟩ := hsel
  have hsame := Glides.alike hglide
  have hstart : Flows e e₁ [] := flows_same hp hsame.config hsame.lanes
  cases item with
  | control q =>
    -- no queue of a peer is touched, whatever the outcome is
    have hpeers : e'.peerQueues = e₁.peerQueues ∧ e'.config = e₁.config := by
      generalize hitem : NextPacket.control q = item at htake
      cases htake with
      | control => exact ⟨rfl, rfl⟩
      | retransmit => exact ⟨rfl, rfl⟩
      | data => cases hitem
    rw [show LaneEvent.ofItem (.control q) = [] from rfl, ite_self]
    cases outcome with
    | ok => exact hstart.trans (flows_of_peers hstart.placed hpeers.2 hpeers.1)
    | wouldBlock => exact hstart.trans (flows_of_peers hstart.placed hpeers.2 hpeers.1)
    | error => exact hstart.trans (flows_of_peers hstart.placed hpeers.2 hpeers.1)
  | data pkt dest enqueuedAt =>
    have hback := htake.alike_data hstart.placed
    cases outcome with
    | ok =>
      cases htake with
      | @data idx dest q q' entry h hpop _ =>
        have htakes := q.takes_popData e₁.priorityOn now
        rw [hpop, ← peerQueue_of_getIndex h] at htakes
        refine hstart.trans (flows_taken hstart.placed ?_ htakes fun x => ?_)
        · rfl
        exact peerQueue_modifyAt h (f := fun _ => q') rfl
    | wouldBlock => exact hstart.trans (flows_same hstart.placed hback.config hback.lanes)
    | error => exact hstart.trans (flows_same hstart.placed hback.config hback.lanes)

theorem flows_sendBurst {n : Nat} (hp : Placed t.engine) : Flows t.engine
    (sendBurst freezeDrr deadline c answers n t).1.engine
    ((burstItems freezeDrr deadline c answers n t).flatMap LaneEvent.ofItem) := by
  induction n generalizing t with
  | zero => exact flows_of_peers hp rfl rfl
  | succ n ih =>
    unfold sendBurst burstItems
    dsimp only
    split
    · exact flows_of_peers hp rfl rfl
    have hsel := selects_popNextApd t.engine freezeDrr (c.pop t.sent.length)
    generalize t.engine.popNextApd freezeDrr (c.pop t.sent.length) = picked at hsel
    obtain ⟨e', item?⟩ := picked
    cases item? with
    | none => exact flows_same hp (Glides.alike hsel).config (Glides.alike hsel).lanes
    | some item =>
      have hsend := flows_trySendNextPacket hp hsel (answers t.sent.length) t.sent.length
      dsimp only [Option.elim]
      generalize e'.trySendNextPacket item (answers t.sent.length) t.sent.length = r at hsend
      obtain ⟨e'', result?⟩ := r
      cases result? with
      | some result => exact hsend
      | none => exact hsend.trans (ih (t := ⟨e'', t.sent ++ [item.packet]⟩) hsend.placed)

theorem peers_drainReserved {retransmit : Bool} {initial : Nat} (queue : List QueuedPacket) (remaining : Nat)
    (t : Ticking) : (drainReserved retransmit initial deadline clock answers queue remaining t).1.engine.peerQueues =
    t.engine.peerQueues ∧ (drainReserved retransmit initial deadline clock answers queue remaining t).1.engine.config
    = t.engine.config := by
  induction queue generalizing remaining t with
  | nil => exact ⟨rfl, rfl⟩
  | cons q rest ih =>
    have hsend (outcome : SendOutcome) (sent : Nat) :
        ((t.engine.withRest retransmit rest).trySendQueuedPacket q retransmit outcome sent).1.peerQueues =
            t.engine.peerQueues ∧
          ((t.engine.withRest retransmit rest).trySendQueuedPacket q retransmit outcome sent).1.config =
            t.engine.config := by
      cases retransmit <;> cases outcome <;> exact ⟨rfl, rfl⟩
    unfold drainReserved
    dsimp only
    split
    · exact ⟨rfl, rfl⟩
    split
    · exact hsend _ _
    obtain ⟨hpeers, hconfig⟩ := ih _ _
    exact ⟨hpeers.trans (hsend _ _).1, hconfig.trans (hsend _ _).2⟩

/-! ## A tick -/

theorem flows_drainReservedPrefix (c : TickClock) (deadline : Instant) (answers : Answers)
    (hp : Placed t.engine) : Flows t.engine (drainReservedPrefix c deadline answers t).1.engine [] := by
  have hloops : (drainReservedPrefix c deadline answers t).1.engine.peerQueues = t.engine.peerQueues ∧
      (drainReservedPrefix c deadline answers t).1.engine.config = t.engine.config := by
    unfold drainReservedPrefix
    refine Search.orElse_fst (I := fun s : Ticking => s.engine.peerQueues = t.engine.peerQueues ∧
      s.engine.config = t.engine.config) (peers_drainReserved _ _ t) fun s hs => ?_
    obtain ⟨hpeers, hconfig⟩ := peers_drainReserved s.engine.controlQ _ s
    exact ⟨hpeers.trans hs.1, hconfig.trans hs.2⟩
  exact flows_of_peers hp hloops.2 hloops.1

theorem flows_shedAt (hp : Placed e) (idx : Nat) (now : Instant) : Flows e (e.shedAt idx now).1 [] := by
  unfold shedAt
  split
  · exact flows_of_peers hp rfl rfl
  rename_i dest q h
  split
  · exact flows_of_peers hp rfl rfl
  rename_i entry bulk hbulk
  split
  · exact flows_of_peers hp rfl rfl
  refine flows_loss hp rfl rfl fun x small => ?_
  unfold lane
  rw [peerQueue_modifyAt h (f := fun _ => { q with bulk := bulk }) rfl]
  by_cases hx : x = dest
  · rw [if_pos hx, hx, peerQueue_of_getIndex h]
    cases small with
    | true => exact .refl _
    | false =>
      show bulk.Sublist q.bulk
      rw [hbulk]
      exact List.sublist_cons_self entry bulk
  · rw [if_neg hx]

theorem flows_shedTurns (turns : List Nat) (dropped : List Packet)
    (hp : Placed e) : Flows e (shedTurns now deadline clock turns e dropped).1 [] := by
  induction turns generalizing e dropped with
  | nil => exact flows_of_peers hp rfl rfl
  | cons i is ih =>
    unfold shedTurns
    split
    · exact flows_of_peers hp rfl rfl
    have hturn : Flows e e.advanceCursor [] := flows_of_peers hp rfl rfl
    have hshed := flows_shedAt hturn.placed e.cursorIndex now
    exact (hturn.trans hshed).trans (ih _ hshed.placed)

theorem flows_tickWith (hp : Placed e) :
    Flows e (e.tickWith c answers).engine ((e.tickItems c answers).flatMap LaneEvent.ofItem) := by
  have hrefill : Flows e (e.refillBudget c.start) [] := by
    refine flows_of_peers hp ?_ ?_
    · unfold refillBudget refreshDrrRttRef
      dsimp only
      repeat' split
      all_goals rfl
    unfold refillBudget refreshDrrRttRef
    dsimp only
    repeat' split
    all_goals rfl
  have hapd : Flows (e.refillBudget c.start) ((e.refillBudget c.start).apdStep c.start c.drain).1 [] := by
    refine flows_of_peers hrefill.placed ?_ ?_
    · unfold apdStep
      split <;> rfl
    unfold apdStep
    split <;> rfl
  have hshed : Flows ((e.refillBudget c.start).apdStep c.start c.drain).1 (((e.refillBudget c.start).apdStep c.start
      c.drain).1.shedStaleBulkRr c.start (c.start + micros (max e.config.maxTickWorkUs 100)) c.shed).1 [] := by
    unfold shedStaleBulkRr
    split
    · exact flows_of_peers hapd.placed rfl rfl
    exact flows_shedTurns _ _ hapd.placed
  have hreserved := flows_drainReservedPrefix c (c.start + micros (max e.config.maxTickWorkUs 100)) answers
    (t := ⟨_, []⟩) hshed.placed
  have hstart : Flows e (e.tickPrefix c answers).2.1.engine [] := ((hrefill.trans hapd).trans hshed).trans hreserved
  unfold tickWith tickItems
  dsimp only
  show Flows e (Search.orElse (e.tickPrefix c answers).2 _).1.engine _
  cases hr : (e.tickPrefix c answers).2.2 with
  | some result =>
    rw [Search.orElse_some hr]
    exact hstart
  | none =>
    rw [Search.orElse_of_none hr]
    exact hstart.trans (flows_sendBurst hstart.placed)

/-! ## The other calls -/

theorem flows_enqueuePeerWithHints (hp : Placed e) {pkt : Bytes}
    : Flows e (e.enqueuePeerWithHints pkt dest rttMs qdMs now).1 [.queued dest ⟨pkt, now⟩] := by
  have hsettings : (e.enqueuePeerWithHints pkt dest rttMs qdMs now).1.config = e.config ∧
      (e.enqueuePeerWithHints pkt dest rttMs qdMs now).1.peerQueues = e.peerQueues.upsert dest .new fun _ =>
        ((hinted (e.peerQueue dest) rttMs qdMs).push ⟨pkt, now⟩ (max e.config.maxDataQueuePackets 1) e.priorityOn
          e.threshold).1 := by
    unfold enqueuePeerWithHints
    dsimp only
    split <;> exact ⟨rfl, rfl⟩
  refine flows_arrival hp (congrArg PacingConfig.drrSmallPacketPriority hsettings.1)
    (congrArg PacingConfig.drrSmallPacketThresholdBytes hsettings.1) dest [⟨pkt, now⟩] fun x small => ?_
  unfold lane
  rw [peerQueue_upsert hsettings.2 x]
  by_cases hx : x = dest
  · rw [if_pos hx, if_pos hx, hx]
    have hlanes := hinted_lanes (e.peerQueue dest) rttMs qdMs
    have hpush := PeerDataQueue.lane_push (hinted (e.peerQueue dest) rttMs qdMs) ⟨pkt, now⟩
      (max e.config.maxDataQueuePackets 1) e.priorityOn e.threshold small
    rwa [show (hinted (e.peerQueue dest) rttMs qdMs).lane small = (e.peerQueue dest).lane small by
      unfold PeerDataQueue.lane; rw [hlanes.1, hlanes.2]] at hpush
  rw [if_neg hx, if_neg hx]
  exact List.sublist_append_left _ _

theorem flows_tryEnqueuePeerBatch (hp : Placed e) {pkts : List Bytes}
    {now : Nat → Instant} : Flows e (e.tryEnqueuePeerBatch dest pkts rttMs qdMs now).1
      (if (e.tryEnqueuePeerBatch dest pkts rttMs qdMs now).2 then (batchEntries pkts now).map (.queued dest)
        else []) := by
  have hconfig : (e.tryEnqueuePeerBatch dest pkts rttMs qdMs now).1.config = e.config := by
    unfold tryEnqueuePeerBatch
    dsimp only
    repeat' split
    all_goals rfl
  obtain ⟨_, _, hlanes⟩ := allOrNothing_tryEnqueuePeerBatch e dest pkts rttMs qdMs now
  split
  · rename_i htaken
    refine flows_arrival hp (congrArg PacingConfig.drrSmallPacketPriority hconfig)
      (congrArg PacingConfig.drrSmallPacketThresholdBytes hconfig) dest _ fun x small => ?_
    have hx := hlanes x
    by_cases hd : x = dest
    · rw [if_pos ⟨htaken, hd⟩] at hx
      obtain ⟨hsmall, hbulk⟩ := Prod.mk.inj hx
      rw [if_pos hd]
      cases small with
      | true => simp [lane, PeerDataQueue.lane, ofLane, hsmall, lanes]
      | false => simp [lane, PeerDataQueue.lane, ofLane, hbulk, lanes]
    rw [if_neg (fun h => hd h.2)] at hx
    rw [if_neg hd, lane_of_lanes hx]
    exact List.sublist_append_left _ _
  · rename_i hrefused
    refine flows_same hp hconfig fun x => ?_
    rw [hlanes x, if_neg (fun h => hrefused h.1)]

theorem flows_removePeer (hp : Placed e) : Flows e (e.removePeer dest).1 [] := by
  unfold removePeer
  dsimp only
  split
  · exact flows_of_peers hp rfl rfl
  rename_i idx hidx
  obtain ⟨q, hq⟩ := IndexMap.getIndex_of_indexOf? hidx
  refine flows_loss hp rfl rfl fun x small => ?_
  unfold lane peerQueue
  dsimp only
  rw [IndexMap.get?_removeAt hq]
  split
  · cases small <;> exact List.nil_sublist _
  exact .refl _

theorem flows_flow (hp : Placed e) {call : Call} (hcall : ∀ cfg now, call ≠ .op (.setConfig cfg now)) :
    Flows e (e.flow call).1 (e.flow call).2 := by
  cases call with
  | op op =>
    cases op with
    | enqueuePeer pkt dest rttMs qdMs now => exact flows_enqueuePeerWithHints hp
    | enqueueBatch dest pkts rttMs qdMs now => exact flows_tryEnqueuePeerBatch hp
    | enqueueControl pkt dest now => exact flows_of_peers hp rfl rfl
    | enqueueRetransmit pkt dest now => exact flows_of_peers hp rfl rfl
    | removePeer dest => exact flows_removePeer hp
    | setConfig cfg now => exact absurd rfl (hcall cfg now)
    | resetObservabilityCounters => exact flows_of_peers hp rfl rfl
    | onCcSample dest qdMs lossEwma => exact flows_of_peers hp rfl rfl
    | tick c answers => exact flows_tickWith hp
  | resetSessionRuntime now => exact flows_loss hp rfl rfl fun x small => by cases small <;> exact List.nil_sublist _
  | setBackgroundCcConfig cc => exact flows_loss hp rfl rfl fun x small => .refl _
  | removeCcPeer dest => exact flows_of_peers hp rfl rfl

/-! ## Credit -/

/-- The turn takes the packet that it found in front, and what the peer pays for it is there. -/
def PaysFront (e e' : PacingEngine) (now : Instant) (item : NextPacket) : Prop :=
  ∃ dest q entry, e.peerQueues.getIndex e.cursorIndex = some (dest, q) ∧
    (q.popData e.priorityOn now).2 = some entry ∧ item = .data entry.pkt dest entry.enqueuedAt ∧
    entry.pkt.length = q.frontLen e.priorityOn now ∧ q.frontLen e.priorityOn now ≤ e.creditAfter q now ∧
    (e'.peerQueue dest).deficit + entry.pkt.length = e.creditAfter q now

theorem drrVisit_served (h : (e.drrVisit now).2 = some item) : ∃ dest q, e.peerQueues.getIndex e.cursorIndex = some
    (dest, q) ∧ 0 < q.frontLen e.priorityOn now ∧ e.backgroundCcCanSend dest (q.frontLen e.priorityOn now)
    (q.holSojournMs now) = true := by
  unfold drrVisit at h
  dsimp only at h
  split at h
  · cases h
  rename_i dest q hq
  split at h
  · cases h
  split at h
  · cases h
  rename_i hcredit
  split at h
  · cases h
  rename_i hcc
  simp only [Bool.or_eq_true, decide_eq_true_eq, not_or] at hcredit
  rw [Bool.not_eq_true', Bool.not_eq_false] at hcc
  exact ⟨dest, q, hq, Nat.pos_of_ne_zero hcredit.1, hcc⟩

theorem paysFront_drrVisit (h : (e.drrVisit now).2 = some item) : PaysFront e (e.drrVisit now).1 now item := by
  obtain ⟨dest, q, hq, hfront, hcc⟩ := drrVisit_served h
  obtain ⟨q', entry, hpop, hle, hitem, hget⟩ := (drrVisit_self hq now hcc hfront).of_some h
  have hentry : (q.popData e.priorityOn now).2 = some entry := congrArg Prod.snd hpop
  have hlen := q.length_of_popData _ _ hentry
  refine ⟨dest, q, entry, hq, hentry, hitem, hlen, hle, ?_⟩
  rw [peerQueue_of_getIndex hget, hlen]
  exact Nat.sub_add_cancel hle

theorem paysFront_popPeersDrr (h : (e.popPeersDrr now).2 = some item) :
    ∃ e₁, Glides e e₁ ∧ e₁.drrVisit now = e.popPeersDrr now ∧ PaysFront e₁ (e.popPeersDrr now).1 now item := by
  have hturns : Search.Outcome (Glides e) (fun e' item => ∃ e₁, Glides e e₁ ∧ e₁.drrVisit now = (e', some item))
      (e.popPeersDrr now) := by
    unfold popPeersDrr
    split
    · exact Relation.ReflTransGen.refl
    refine Search.Outcome.untilSome (fun s _ hs => ?_) .refl
    have hvisit := (selects_drrVisit s now).after hs
    unfold Search.Outcome
    cases hitem : (s.drrVisit now).2 with
    | none => exact hvisit.of_none hitem
    | some item => exact ⟨s, hs, Prod.ext rfl hitem⟩
  obtain ⟨e₁, hglide, hvisit⟩ := hturns.of_some h
  have heq : e₁.drrVisit now = e.popPeersDrr now := hvisit.trans (Prod.ext rfl h.symm)
  refine ⟨e₁, hglide, heq, ?_⟩
  rw [← heq]
  exact paysFront_drrVisit (congrArg Prod.snd hvisit)

end

/-- While the settings stay, the packets of a lane are sent in the order in which they came in, and each turn of the
deficit round robin has the credit for the packet that it takes. -/
theorem lanes_keep_order (e : PacingEngine) (hp : Placed e) (calls : List Call)
    (hcalls : ∀ call ∈ calls, ∀ cfg now, call ≠ .op (.setConfig cfg now)) (x : SocketAddr) (small : Bool) :
    (e.ofLane small (sentTo x (trace flow e calls))).Sublist
    (e.lane x small ++ e.ofLane small (queuedTo x (trace flow e calls))) ∧ ∀ (s : PacingEngine)
    (now : Instant) (item : NextPacket), (s.popPeersDrr now).2 = some item → ∃ s₁, Glides s s₁ ∧ s₁.drrVisit now =
    s.popPeersDrr now ∧ PaysFront s₁ (s.popPeersDrr now).1 now item := by
  have hrun : Flows e (run flow e calls) (trace flow e calls) := by
    have heach : Each flow e calls fun _ call => ∀ cfg now, call ≠ .op (.setConfig cfg now) :=
      fun i call hi => hcalls call (List.mem_of_getElem? hi)
    exact Machine.trace_invariant (fun s log call hcall hs => hs.trans (flows_flow hs.placed hcall))
      (flows_of_peers hp rfl rfl) heach
  exact ⟨(List.sublist_append_left _ _).trans (hrun.order x small), fun s now item h => paysFront_popPeersDrr h⟩

theorem placed_new {start : Instant} : Placed (.new start) := fun _ => ⟨nofun, nofun⟩

/-- The socket takes the first packet and no more until the second tick. -/
def blockedOnce : List Call :=
  [.op (.enqueuePeer (packetOf 100) longPeer none none 0), .op (.enqueuePeer (packetOf 101) longPeer none none 1),
    .op (.tick (.at (secs 1)) fun n => if n = 0 then .ok else .wouldBlock),
    .op (.enqueuePeer (packetOf 102) longPeer none none (secs 1)), .op (.tick (.at (secs 2)) fun _ => .ok)]

theorem blockedOnce_in_order : sentTo longPeer (trace flow (.new 0) blockedOnce) =
        [⟨packetOf 100, 0⟩, ⟨packetOf 101, 1⟩, ⟨packetOf 102, secs 1⟩] ∧
      ((PacingEngine.new 0).ofLane true (sentTo longPeer (trace flow (.new 0) blockedOnce))).Sublist
        ((PacingEngine.new 0).lane longPeer true ++
          (PacingEngine.new 0).ofLane true (queuedTo longPeer (trace flow (.new 0) blockedOnce))) := by
  refine ⟨by decide +kernel, (lanes_keep_order (.new 0) placed_new blockedOnce ?_ longPeer true).1⟩
  intro call hcall cfg now hset
  rw [hset] at hcall
  simp [blockedOnce] at hcall

end PacingEngine

end ConnectUnit.Pacing
