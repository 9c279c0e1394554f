import ConnectUnit.HostSound
import ConnectUnit.ReliableSound

/-!
# Acknowledged means delivered

A sender and a receiver without keys. The network may lose, repeat and reorder packets: any packet that was queued may
arrive at any time.
-/

open List (mem_append mem_append_left mem_map mem_singleton)
open Machine (Each emitAt stateAt trace)

namespace ConnectUnit

open Reliable (reliablePacket ackPacket)

variable {seq : UInt32} {body : Bytes} {inner : CompactPacketType} {a : Arrival} {order : IterOrder}
variable {log : List Host.Output}

structure ReliableLink (γ : Type) where
  now : Instant
  sender : Reliable.ReliableChannel
  /-- The packets that `send` returned. -/
  queued : List Bytes
  receiver : Host γ
  /-- The packets that have come to the receiver, and when. -/
  arrived : List (Instant × Bytes)

namespace ReliableLink

inductive Action where
  | sender (op : Reliable.ReliableChannel.Op)
  | resetSender
  | arrive (packet : Bytes) (a : Arrival) (order : IterOrder)
  | receiver (ev : Host.Event)

def queuedPacket : Reliable.ReliableChannel.Output → Option Bytes
  | .sent (.queued _ packet) => some packet
  | _ => none

section
variable {γ : Type} (P : Primitives) (W : WireText) (J : JsonText) (rs : Codec γ UInt8) (ep : SocketAddr)

def start (receiver : Host γ) : ReliableLink γ := ⟨0, .new, [], receiver, []⟩

def step (l : ReliableLink γ) (act : Nat × Action) : ReliableLink γ × List Host.Output :=
  let now := l.now + act.1
  match act.2 with
  | .sender op =>
    let r := l.sender.step op
    ({ l with now := now, sender := r.1, queued := l.queued ++ r.2.filterMap queuedPacket }, [])
  | .resetSender => ({ l with now := now, sender := l.sender.resetSession }, [])
  | .arrive packet a order =>
    if packet ∈ l.queued then
      let r := l.receiver.step P W J rs now (.datagram packet { a with fromEp := ep } order)
      ({ l with now := now, receiver := r.1, arrived := l.arrived ++ [(now, packet)] }, r.2)
    else ({ l with now := now }, [])
  | .receiver ev =>
    let r := l.receiver.step P W J rs now ev
    ({ l with now := now, receiver := r.1 }, r.2)

end

/-! ## Packets as the receiver reads them -/

theorem ofNat_fromBeBytes {u : UInt32} : UInt32.ofNat (fromBeBytes (u32ToBeBytes u)) = u := by
  have hsum : fromBeBytes (u32ToBeBytes u) = u.toNat := by
    show u.toUInt8.toNat + 256 * ((u >>> 8).toUInt8.toNat + 256 * ((u >>> 16).toUInt8.toNat +
      256 * ((u >>> 24).toUInt8.toNat + 256 * 0))) = u.toNat
    have h24 : UInt32.toNat 24 = 24 := rfl
    have h16 : UInt32.toNat 16 = 16 := rfl
    have h8 : UInt32.toNat 8 = 8 := rfl
    simp only [UInt32.toNat_toUInt8, UInt32.toNat_shiftRight, Nat.shiftRight_eq_div_pow, h24, h16, h8, Nat.reduceMod,
      Nat.reducePow]
    have := u.toNat_lt
    omega
  rw [hsum, UInt32.ofNat_toNat]

theorem tryFromByte_toByte {ty : CompactPacketType} : CompactPacketType.tryFromByte ty.toByte = some ty := by
  cases ty <;> rfl

section
variable {γ : Type} {seq : UInt32} {inner : CompactPacketType} {body : Bytes}

theorem reliableSeq?_of_inner (h : inner = .joinAck) :
    Host.reliableSeq? (u32ToBeBytes seq ++ inner.toByte :: body) = some seq := by
  have hlen : ¬ (u32ToBeBytes seq ++ inner.toByte :: body).length < 5 := by
    rw [List.length_append, u32ToBeBytes_length, List.length_cons]
    omega
  unfold Host.reliableSeq?
  rw [if_neg hlen, if_neg (not_not_intro ?_)]
  · exact congrArg some ofNat_fromBeBytes
  exact (tryFromByte_toByte).trans (congrArg some h)

theorem reliableSeq?_of_other (h : inner ≠ .joinAck) :
    Host.reliableSeq? (u32ToBeBytes seq ++ inner.toByte :: body) = none := by
  unfold Host.reliableSeq?
  split
  · rfl
  refine if_pos fun hj => h (Option.some.inj ((tryFromByte_toByte).symm.trans hj))

end

/-! ## The memory of the receiver -/

theorem young_of_mem_dropWhile {now : Instant} {l : List (Instant × ReliableDedupKey × UInt32)}
    (hs : l.Pairwise (·.1 ≤ ·.1)) {x : Instant × ReliableDedupKey × UInt32}
    (hx : x ∈ l.dropWhile fun x => secs 60 ≤ now - x.1) : now - x.1 < secs 60 := by
  induction l with
  | nil => cases hx
  | cons y l ih =>
    obtain ⟨hy, hl⟩ := List.pairwise_cons.mp hs
    rw [List.dropWhile_cons] at hx
    by_cases hold : secs 60 ≤ now - y.1
    · rw [if_pos (decide_eq_true hold)] at hx
      exact ih hl hx
    rw [if_neg (by simpa using hold)] at hx
    have hyoung := Nat.lt_of_not_le hold
    rcases List.mem_cons.mp hx with rfl | hmem
    · exact hyoung
    exact (Nat.sub_le_sub_left (hy x hmem) now).trans_lt hyoung

section
variable {γ : Type} {ep : SocketAddr} {now : Instant} {s s' : Inbound γ} {arrived : List (Instant × Bytes)}
  {log : List Host.Output}

structure Ledger (ep : SocketAddr) (now : Instant) (s : Inbound γ) (arrived : List (Instant × Bytes))
    (log : List Host.Output) : Prop where
  seen : ∀ x ∈ s.reliableSeen, x ∈ s.reliableSeenTimeline.map (·.2)
  sorted : s.reliableSeenTimeline.Pairwise (·.1 ≤ ·.1)
  past : ∀ x ∈ s.reliableSeenTimeline, x.1 ≤ now
  story : ∀ x ∈ s.reliableSeenTimeline, ∃ body, (x.1, reliablePacket x.2.2 .joinAck body) ∈ arrived ∧
    .delivered x.2.2 body ep ∈ log

theorem Ledger.of_nil (h : s.memory = ([], [])) : Ledger ep now s arrived log := by
  obtain ⟨hseen, htimeline⟩ := Prod.mk.inj h
  constructor
  · rw [hseen]; exact fun _ hx => by cases hx
  · rw [htimeline]; exact List.Pairwise.nil
  · rw [htimeline]; exact fun _ hx => by cases hx
  · rw [htimeline]; exact fun _ hx => by cases hx

section
variable (h : Ledger ep now s arrived log)
include h

theorem Ledger.of_memory (hm : s'.memory = s.memory) : Ledger ep now s' arrived log := by
  obtain ⟨hseen, htimeline⟩ := Prod.mk.inj hm
  constructor
  · rw [hseen, htimeline]; exact h.seen
  · rw [htimeline]; exact h.sorted
  · rw [htimeline]; exact h.past
  · rw [htimeline]; exact h.story

theorem Ledger.later {now' : Instant} (hnow : now ≤ now') : Ledger ep now' s arrived log :=
  { h with past := fun x hx => (h.past x hx).trans hnow }

theorem Ledger.append (more : List (Instant × Bytes)) (out : List Host.Output) :
    Ledger ep now s (arrived ++ more) (log ++ out) :=
  { h with story := fun x hx => (h.story x hx).imp fun _ hb =>
      ⟨mem_append_left more hb.1, mem_append_left out hb.2⟩ }

theorem Ledger.prune : Ledger ep now (s.pruneReliableSeenCache now) arrived log ∧ ∀
    x ∈ (s.pruneReliableSeenCache now).reliableSeenTimeline, now < x.1 + secs 60 := by
  have hyoung : ∀ x ∈ (s.pruneReliableSeenCache now).reliableSeenTimeline, now < x.1 + secs 60 := by
    intro x hx
    have hmem := List.mem_of_mem_drop (Inbound.prune_timeline ▸ hx)
    exact lt_add_of_tsub_lt_left (young_of_mem_dropWhile h.sorted hmem)
  obtain ⟨gone, kept, hsplit, heq⟩ := Inbound.prune_eq s now
  refine ⟨?_, hyoung⟩
  rw [heq]
  have hsub : ∀ x ∈ kept, x ∈ s.reliableSeenTimeline := by
    intro x hx
    rw [hsplit]
    exact List.mem_append_right gone hx
  constructor
  · intro x hx
    obtain ⟨hx, hgone⟩ := List.mem_filter.mp hx
    have hmem := h.seen x hx
    rw [hsplit, List.map_append] at hmem
    exact (mem_append.mp hmem).resolve_left (of_decide_eq_true hgone)
  · have hs := h.sorted
    rw [hsplit] at hs
    exact (List.pairwise_append.mp hs).2.1
  · exact fun x hx => h.past x (hsub x hx)
  · exact fun x hx => h.story x (hsub x hx)

theorem Ledger.note {dk : ReliableDedupKey}
    (harr : (now, reliablePacket seq .joinAck body) ∈ arrived) (hdel : .delivered seq body ep ∈ log) :
    Ledger ep now (s.noteReliableSeen dk seq now) arrived log where
  seen := by
    intro x hx
    show x ∈ (s.reliableSeenTimeline ++ [(now, dk, seq)]).map (·.2)
    rw [List.map_append]
    exact mem_append.mpr ((mem_append.mp hx).imp_left (h.seen x))
  sorted := by
    refine List.pairwise_append.mpr ⟨h.sorted, List.pairwise_singleton _ _, fun x hx y hy => ?_⟩
    obtain rfl := mem_singleton.mp hy
    exact h.past x hx
  past := by
    intro x hx
    rcases mem_append.mp hx with hx | hx
    · exact h.past x hx
    rw [mem_singleton.mp hx]
  story := by
    intro x hx
    rcases mem_append.mp hx with hx | hx
    · exact h.story x hx
    rw [mem_singleton.mp hx]
    exact ⟨body, harr, hdel⟩

end

end

/-! ## Runs -/

section
variable {γ : Type} {P : Primitives} {W : WireText} {J : JsonText} {rs : Codec γ UInt8} {ep : SocketAddr}
variable {n : Host γ}

theorem handlePacket_reliablePacket : n.handlePacket P W J rs (reliablePacket seq inner body) a order =
    n.handleReliablePacket P W J (u32ToBeBytes seq ++ inner.toByte :: body) a order :=
  Prod.ext rfl (List.append_nil _)

theorem Ledger.arrive (rs : Codec γ UInt8) {arrived : List (Instant × Bytes)}
    (h : Ledger a.fromEp a.now n.inbound arrived log) (hopen : n.inbound.core.hasCrypto = false) (seq : UInt32)
    (inner : CompactPacketType) (body : Bytes) (order : IterOrder) :
    let r := n.handlePacket P W J rs (reliablePacket seq inner body) a order
    let arrived := arrived ++ [(a.now, reliablePacket seq inner body)]
    Ledger a.fromEp a.now r.1.inbound arrived (log ++ r.2) ∧
      (.ack a.fromEp (ackPacket seq) ∈ r.2 → inner = .joinAck ∧ ∃ t body', a.now < t + secs 60 ∧
        (t, reliablePacket seq .joinAck body') ∈ arrived ∧ .delivered seq body' a.fromEp ∈ log ++ r.2) := by
  intro r arr
  have hr : r = n.handleReliablePacket P W J (u32ToBeBytes seq ++ inner.toByte :: body) a order :=
    handlePacket_reliablePacket
  rw [hr]
  by_cases hinner : inner = .joinAck
  · subst hinner
    obtain ⟨hpruned, hyoung⟩ := h.prune
    have hseq : Host.reliableSeq? (u32ToBeBytes seq ++ CompactPacketType.joinAck.toByte :: body) = some seq :=
      reliableSeq?_of_inner rfl
    rcases Host.handleReliablePacket_cases (P := P) (W := W) (J := J) hseq with
      ⟨hseen, hm, rest, _, hout⟩ | ⟨_, hm, rest, _, hout⟩
    · refine ⟨(hpruned.append _ _).of_memory hm, fun _ => ⟨rfl, ?_⟩⟩
      obtain ⟨x, hx, hxs⟩ := mem_map.mp (hpruned.seen _ hseen)
      obtain ⟨body', harr, hdel⟩ := hpruned.story x hx
      have hnum : x.2.2 = seq := congrArg Prod.snd hxs
      rw [hnum] at harr hdel
      exact ⟨x.1, body', hyoung x hx, mem_append_left _ harr, mem_append_left _ hdel⟩
    have harr : (a.now, reliablePacket seq .joinAck body) ∈ arr := List.mem_append_right _ (mem_singleton.mpr rfl)
    have hdel : Host.Output.delivered seq body a.fromEp ∈ log ++ (n.handleReliablePacket P W J
        (u32ToBeBytes seq ++ CompactPacketType.joinAck.toByte :: body) a order).2 := by
      rw [hout, hopen]
      exact List.mem_append_right _ (List.mem_cons_of_mem _ List.mem_cons_self)
    refine ⟨((hpruned.append _ _).note harr hdel).of_memory hm, fun _ => ⟨rfl, a.now, body, ?_, harr, hdel⟩⟩
    exact Nat.lt_add_of_pos_right (by decide)
  · have hnone : n.handleReliablePacket P W J (u32ToBeBytes seq ++ inner.toByte :: body) a order = (n, []) := by
      unfold Host.handleReliablePacket
      rw [reliableSeq?_of_other hinner]
    rw [hnone]
    exact ⟨h.append _ _, fun hack => by cases hack⟩

/-- The setting: the receiver has no keys, and only the sender sends it reliable packets. -/
def Paired (rs : Codec γ UInt8) (l : ReliableLink γ) (act : Nat × Action) : Prop :=
  match act.2 with
  | .arrive _ _ _ => l.receiver.inbound.core.hasCrypto = false
  | .receiver (.datagram buf a _) =>
    ∀ pkt ∈ (l.receiver.packets rs buf { a with now := l.now + act.1 }).2, pkt.1 ≠ .reliable
  | _ => True

/-- A packet arrives only if those with its number that arrived in the last 60 s were copies of it. -/
def Unambiguous (l : ReliableLink γ) (act : Nat × Action) : Prop :=
  match act.2 with
  | .arrive packet _ _ =>
    ∀ x ∈ l.arrived, l.now + act.1 < x.1 + secs 60 → x.2.take 5 = packet.take 5 → x.2 = packet
  | _ => True

instance (rs : Codec γ UInt8) (l : ReliableLink γ) (act : Nat × Action) : Decidable (Paired rs l act) := by
  unfold Paired
  split <;> infer_instance

instance (l : ReliableLink γ) (act : Nat × Action) : Decidable (Unambiguous l act) := by
  unfold Unambiguous
  split <;> infer_instance

structure Sound (ep : SocketAddr) (l : ReliableLink γ) (log : List Host.Output) : Prop where
  ledger : Ledger ep l.now l.receiver.inbound l.arrived log
  framed : ∀ packet ∈ l.queued, ∃ seq inner body, packet = reliablePacket seq inner body

theorem framed_of_step {ch : Reliable.ReliableChannel} {op : Reliable.ReliableChannel.Op} {packet : Bytes}
    (h : packet ∈ (ch.step op).2.filterMap queuedPacket) :
    ∃ seq inner body, packet = reliablePacket seq inner body := by
  obtain ⟨o, ho, hq⟩ := List.mem_filterMap.mp h
  cases op with
  | send inner body dest hint now =>
    obtain rfl := mem_singleton.mp ho
    rcases Reliable.ReliableChannel.send_cases ch inner body dest hint now with hb | ⟨hres, _⟩
    · rw [hb] at hq
      cases hq
    rw [hres] at hq
    exact ⟨_, _, _, (Option.some.inj hq).symm⟩
  | tickInto now =>
    rcases mem_append.mp ho with ho | ho
    · obtain ⟨e, _, rfl⟩ := mem_map.mp ho
      cases hq
    obtain ⟨e, _, rfl⟩ := mem_map.mp ho
    cases hq
  | markSent | onAck | migrateDest | flushDest | applyTuning => cases ho

theorem handlePacket_memory {buf : Bytes} (h : ∀ pkt ∈ (n.packets rs buf a).2, pkt.1 ≠ .reliable)
    : (n.handlePacket P W J rs buf a order).1.inbound.memory = n.inbound.memory := by
  unfold Host.handlePacket
  split
  · rename_i tag body _
    exact (Host.absorb_spec _ a order _).1.trans (Inbound.handleParsedPacket_memory P _)
  refine Machine.trace_invariant (I := fun (n' : Host γ) _ => n'.inbound.memory = n.inbound.memory)
    (fun n' _ pkt (hpkt : pkt.1 ≠ .reliable) hI => ?_) Host.packets_memory fun i pkt hpkt => ?_
  · exact (Host.handleCompactPacket_spec hpkt a order).1.trans hI
  exact h pkt (List.mem_of_getElem? hpkt)

theorem Sound.step {l : ReliableLink γ} (h : Sound ep l log) {act : Nat × Action}
    (hset : Paired rs l act) : Sound ep (step P W J rs ep l act).1 (log ++ (step P W J rs ep l act).2) := by
  obtain ⟨wait, act⟩ := act
  have hlater : Ledger ep (l.now + wait) l.receiver.inbound l.arrived log := h.ledger.later (Nat.le_add_right _ _)
  have hkept : ∀ (s : Inbound γ) (out : List Host.Output), s.memory = l.receiver.inbound.memory →
      Ledger ep (l.now + wait) s l.arrived (log ++ out) := by
    intro s out hm
    have hgrown := hlater.append [] out
    rw [List.append_nil] at hgrown
    exact hgrown.of_memory hm
  cases act with
  | sender op =>
    refine ⟨hkept _ [] rfl, fun packet hp => ?_⟩
    exact (mem_append.mp hp).elim (h.framed packet) framed_of_step
  | resetSender => exact ⟨hkept _ [] rfl, h.framed⟩
  | arrive packet a order =>
    unfold ReliableLink.step
    dsimp only
    split
    · rename_i hq
      obtain ⟨seq, inner, body, rfl⟩ := h.framed packet hq
      have harr := Ledger.arrive (P := P) (W := W) (J := J) rs (a := { a with fromEp := ep, now := l.now + wait })
        hlater hset seq inner body order
      exact ⟨harr.1, h.framed⟩
    · exact ⟨hkept _ [] rfl, h.framed⟩
  | receiver ev =>
    refine ⟨?_, h.framed⟩
    cases ev with
    | datagram buf a order => exact hkept _ _ (handlePacket_memory hset)
    | membership env ev => exact hkept _ _ rfl
    | command ev =>
      cases ev with
      | resetSession => exact Ledger.of_nil rfl
      | _ => exact hkept _ _ rfl

theorem reliablePacket_body_inj {inner' : CompactPacketType} {body' : Bytes}
    (h : reliablePacket seq inner body = reliablePacket seq inner' body') : body = body' :=
  (List.cons.inj (List.append_cancel_left (List.cons.inj h).2)).2

/-- Whenever the receiver acknowledges a packet that the sender queued, its body has been handed on. -/
theorem acknowledged_is_delivered (P : Primitives) (W : WireText) (J : JsonText) (rs : Codec γ UInt8)
    (ep : SocketAddr) (receiver : Host γ) (hfresh : receiver.inbound.memory = ([], [])) (acts : List (Nat × Action))
    (hset : Each (step P W J rs ep) (start receiver) acts (Paired rs))
    (hok : Each (step P W J rs ep) (start receiver) acts Unambiguous) (i wait : Nat) (a : Arrival)
    (order : IterOrder) (seq : UInt32) (inner : CompactPacketType) (body : Bytes)
    (hact : acts[i]? = some (wait, .arrive (reliablePacket seq inner body) a order))
    (hack : .ack ep (ackPacket seq) ∈ emitAt (step P W J rs ep) (start receiver) acts i) : .delivered seq body
    ep ∈ trace (step P W J rs ep) (start receiver) (acts.take (i + 1)) := by
  have hsound := Machine.trace_invariant (I := Sound ep) (fun l log act => fun hact hI => Sound.step hI hact)
    ⟨Ledger.of_nil hfresh, fun _ h => by cases h⟩ (hset.take i)
  have hset := hset i _ hact
  have hok := hok i _ hact
  obtain ⟨act, hact', hack⟩ := Machine.emitAt_mem _ _ _ hack
  obtain rfl := Option.some.inj (hact.symm.trans hact')
  rw [Machine.trace_take_succ _ _ _ hact]
  change Sound ep (stateAt (step P W J rs ep) (start receiver) acts i) _ at hsound
  generalize stateAt (step P W J rs ep) (start receiver) acts i = l at *
  generalize trace (step P W J rs ep) (start receiver) (acts.take i) = log at *
  unfold step at hack ⊢
  dsimp only at hack ⊢
  by_cases hq : reliablePacket seq inner body ∈ l.queued
  · rw [if_pos hq] at hack ⊢
    have hlater := hsound.ledger.later (Nat.le_add_right l.now wait)
    obtain ⟨rfl, t, body', hyoung, harr, hdel⟩ := (Ledger.arrive (P := P) (W := W) (J := J) rs
      (a := { a with fromEp := ep, now := l.now + wait }) hlater hset seq inner body order).2 hack
    have hsame : body' = body := by
      rcases mem_append.mp harr with harr | harr
      · exact reliablePacket_body_inj (hok _ harr hyoung rfl)
      exact reliablePacket_body_inj (congrArg Prod.snd (mem_singleton.mp harr))
    subst hsame
    exact hdel
  rw [if_neg hq] at hack
  cases hack

end

/-! ### A sender that begins a new session -/

open Inbound (peerEp noCodec)

def sendAck (body : Bytes) : Nat × Action := (0, .sender (.send .joinAck body peerEp none 0))

def arrivesAfter (wait : Nat) (body : Bytes) : Nat × Action :=
  (wait, .arrive (reliablePacket 1 .joinAck body) (Host.arrivalOf peerEp) .asStored)

def noJson : JsonText := ⟨fun _ => none, fun _ => none, fun _ => none⟩

def restartedSender (wait : Nat) : List (Nat × Action) :=
  [sendAck [1], arrivesAfter 0 [1], (0, .resetSender), sendAck [2], arrivesAfter wait [2]]

/-- The packet of the new session comes when the number is forgotten. -/
theorem restarted_sender_delivered : .delivered 1 [2] peerEp ∈ trace
    (step .transparent Host.plainText noJson noCodec peerEp) (start (Host.openHost (.new 0)))
    ((restartedSender (secs 60)).take 5) := by
  refine acknowledged_is_delivered .transparent Host.plainText noJson noCodec peerEp
    (Host.openHost (.new 0)) rfl _ ?_ ?_ 4
    (secs 60) (Host.arrivalOf peerEp) .asStored 1 .joinAck [2] rfl (by decide +kernel)
  · decide +kernel
  decide +kernel

/-- The first packet of the new session is acknowledged and dropped. -/
theorem restarted_sender_acknowledged_undelivered : (Host.openHost (.new 0)).inbound.core.hasCrypto = false ∧
    (trace (step .transparent Host.plainText noJson noCodec peerEp) (start (Host.openHost (.new 0)))
      (restartedSender (secs 1))) = [.ack peerEp (ackPacket 1), .delivered 1 [1] peerEp, .ack peerEp (ackPacket 1)] :=
  ⟨rfl, by decide +kernel⟩

end ReliableLink

end ConnectUnit
