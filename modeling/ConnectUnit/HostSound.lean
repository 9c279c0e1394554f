import ConnectUnit.InboundSound
import ConnectUnit.Host

/-!
# Reliable packets arrive at most once

A reliable packet is remembered for 60 s under a key: the address of the sender's route, or its endpoint if there is
no route.
-/

open Machine (Each trace trace_invariant)

namespace ConnectUnit

variable {dk : ReliableDedupKey} {seq : UInt32} {body : Bytes} {out : List Output}
variable {vip : String} {a : Arrival} {authenticated : Bool} {now : Instant} {buf : Bytes} {l : List Output}
variable {seq' : UInt32}

namespace Inbound

/-! ## Handlers that leave the memory alone -/

section
variable {γ : Type} (P : Primitives) (s : Inbound γ)

theorem updateRoute_memory {nodeId : Option String} : (s.updateRoute vip nodeId a).memory = s.memory := by
  unfold updateRoute
  split
  · rfl
  dsimp only
  split
  · split <;> rfl
  rfl

theorem Acts.memory {s s' : Inbound γ} (h : Acts authenticated a s s') : s'.memory = s.memory := by
  induction h with
  | refl => rfl
  | tail _ hact ih =>
    refine .trans ?_ ih
    cases hact with
    | limit | touch => rfl
    | learn => exact updateRoute_memory _

theorem handleParsedPacket_memory {tag : Tag} : (s.handleParsedPacket P tag body a).1.memory = s.memory := by
  unfold handleParsedPacket
  split
  · rfl
  split
  · unfold applyPmarBody
    split <;> rfl
  split
  · unfold handleSignedWrapper
    dsimp only
    split
    · exact acts_dispatchControl.memory
    rfl
  · exact acts_dispatchControl.memory

theorem handleCompactPacket_memory {ty : CompactPacketType} (hty : ty ≠ .reliable) :
    (s.handleCompactPacket P ty body a).1.memory = s.memory := by
  cases ty with
  | reliable => exact absurd rfl hty
  | encrypted => exact s.handleEncrypted_keeps.1.memory
  | data =>
    show (s.handleData body a).1.memory = s.memory
    unfold handleData
    dsimp only
    split
    · rfl
    split
    · rfl
    exact (handleMdatLike_keeps _).memory
  | pong => exact s.handlePongBody_keeps.memory
  | ack => rfl
  | ping => rfl
  | fec => rfl
  | joinAck => rfl

/-! ## The memory -/

structure Remembers : Prop where
  nodup : (s.reliableSeenTimeline.map (·.2)).Nodup
  mem_iff : ∀ x, x ∈ s.reliableSeen ↔ x ∈ s.reliableSeenTimeline.map (·.2)

variable {s}

theorem Remembers.of_memory {s' : Inbound γ} (h : s.Remembers) (hm : s'.memory = s.memory) : s'.Remembers := by
  obtain ⟨hseen, htimeline⟩ := Prod.mk.inj hm
  exact ⟨by rw [htimeline]; exact h.nodup, by rw [hseen, htimeline]; exact h.mem_iff⟩

theorem Remembers.of_nil (h : s.memory = ([], [])) : s.Remembers := by
  obtain ⟨hseen, htimeline⟩ := Prod.mk.inj h
  exact ⟨by rw [htimeline]; exact List.nodup_nil, by rw [hseen, htimeline]; exact fun _ => .rfl⟩

theorem prune_timeline {s : Inbound γ} : (s.pruneReliableSeenCache now).reliableSeenTimeline =
    (s.reliableSeenTimeline.dropWhile fun x => secs 60 ≤ now - x.1).drop
    ((s.reliableSeenTimeline.dropWhile fun x => secs 60 ≤ now - x.1).length - 16384) := by
  simp only [pruneReliableSeenCache]

theorem prune_eq (s : Inbound γ) (now : Instant) : ∃ gone kept, s.reliableSeenTimeline = gone ++ kept ∧
    s.pruneReliableSeenCache now = { s with
      reliableSeenTimeline := kept
      reliableSeen := s.reliableSeen.filter fun x => x ∉ gone.map (·.2) } := by
  refine ⟨_, _, ?_, rfl⟩
  rw [List.append_assoc, List.take_append_drop, List.takeWhile_append_dropWhile]

theorem Remembers.prune (h : s.Remembers) : (s.pruneReliableSeenCache now).Remembers := by
  obtain ⟨gone, kept, hsplit, heq⟩ := prune_eq s now
  have hnd := h.nodup
  rw [hsplit, List.map_append, List.nodup_append] at hnd
  rw [heq]
  refine ⟨hnd.2.1, fun x => ?_⟩
  show x ∈ s.reliableSeen.filter (fun x => x ∉ gone.map (·.2)) ↔ x ∈ kept.map (·.2)
  rw [List.mem_filter, h.mem_iff, hsplit, List.map_append, List.mem_append, decide_eq_true_eq]
  constructor
  · intro hx
    exact hx.1.resolve_left hx.2
  intro hx
  exact ⟨.inr hx, fun hg => hnd.2.2 x hg x hx rfl⟩

theorem Remembers.note (h : s.Remembers) (hnew : (dk, seq) ∉ s.reliableSeen)
    : (s.noteReliableSeen dk seq now).Remembers := by
  unfold noteReliableSeen
  constructor
  · rw [List.map_append]
    refine List.nodup_append.mpr ⟨h.nodup, List.nodup_singleton _, fun x hx y hy he => ?_⟩
    obtain rfl : x = (dk, seq) := he.trans (List.mem_singleton.mp hy)
    exact hnew ((h.mem_iff _).mpr hx)
  intro x
  rw [List.map_append, List.mem_append, List.mem_append, h.mem_iff]
  rfl

theorem mem_prune (hroom : s.reliableSeenTimeline.length ≤ 16384)
    {x : Instant × ReliableDedupKey × UInt32} (hx : x ∈ s.reliableSeenTimeline) (hyoung : now < x.1 + secs 60) :
    x ∈ (s.pruneReliableSeenCache now).reliableSeenTimeline := by
  have hpos : 0 < secs 60 := by decide
  have hlen : (s.reliableSeenTimeline.dropWhile fun x => secs 60 ≤ now - x.1).length - 16384 = 0 := by
    have := (List.dropWhile_sublist (fun x : Instant × _ => decide (secs 60 ≤ now - x.1))
      (l := s.reliableSeenTimeline)).length_le
    omega
  rw [prune_timeline, hlen, List.drop_zero]
  rw [← List.takeWhile_append_dropWhile (p := fun x : Instant × _ => decide (secs 60 ≤ now - x.1))
    (l := s.reliableSeenTimeline)] at hx
  rcases List.mem_append.mp hx with h | h
  · have hold := of_decide_eq_true (List.all_eq_true.mp List.all_takeWhile x h)
    exact absurd hyoung (Nat.not_lt.mpr (Nat.add_le_of_le_sub' (by omega) hold))
  exact h

end

end Inbound

namespace Host

section
variable {γ : Type} {P : Primitives} {W : WireText} {J : JsonText} {rs : Codec γ UInt8} {n : Host γ}
variable {s : Inbound γ}

/-! ## One packet -/

def Output.isPlain : Output → Bool
  | .engine _ => true
  | .member _ => true
  | .ack _ _ => false
  | .delivered _ _ _ => false

theorem isPlain_of_mem_map {α : Type} {f : α → Output} (hf : ∀ x, (f x).isPlain) {l : List α} :
    ∀ o ∈ l.map f, o.isPlain := by
  intro o ho
  obtain ⟨x, _, rfl⟩ := List.mem_map.mp ho
  exact hf x

theorem handOn_spec (authenticated : Bool) (a : Arrival) (order : IterOrder) (n : Host γ) (o : ConnectUnit.Output) :
    (handOn P W J authenticated a order n o).1.inbound.memory = n.inbound.memory ∧ ∀ o' ∈
    (handOn P W J authenticated a order n o).2, o'.isPlain := by
  have hnone : ∀ o' ∈ ([] : List Output), o'.isPlain := fun _ h => by cases h
  unfold handOn
  split
  · unfold handleMessage
    dsimp only
    split
    · exact ⟨rfl, isPlain_of_mem_map fun _ => rfl⟩
    split
    · exact ⟨rfl, hnone⟩
    split
    · exact ⟨rfl, isPlain_of_mem_map fun _ => rfl⟩
    split
    · exact ⟨rfl, hnone⟩
    exact ⟨rfl, hnone⟩
  refine ⟨rfl, fun o' h => ?_⟩
  obtain rfl := List.mem_singleton.mp h
  rfl

theorem absorb_spec (authenticated : Bool) (a : Arrival) (order : IterOrder) (r : Inbound γ × List ConnectUnit.Output)
    : (n.absorb P W J authenticated a order r).1.inbound.memory = r.1.memory ∧ ∀ o ∈
    (n.absorb P W J authenticated a order r).2, o.isPlain := by
  refine trace_invariant (I := fun (n' : Host γ) log => n'.inbound.memory = r.1.memory ∧ ∀ o ∈ log, Output.isPlain o)
    (fun n' log o (_ : True) hI => ?_) ⟨rfl, fun _ ho => by cases ho⟩ fun _ _ _ => trivial
  obtain ⟨hm, hp⟩ := handOn_spec authenticated a order n' o
  exact ⟨hm.trans hI.1, fun o' ho' => (List.mem_append.mp ho').elim (hI.2 o') (hp o')⟩

theorem handleCompactPacket_spec {pkt : CompactPacketType × Bytes} (hty : pkt.1 ≠ .reliable) (a : Arrival)
    (order : IterOrder) : (handleCompactPacket P W J a order n pkt).1.inbound.memory = n.inbound.memory ∧ ∀ o ∈
    (handleCompactPacket P W J a order n pkt).2, o.isPlain := by
  unfold handleCompactPacket
  rw [if_neg hty]
  obtain ⟨hm, hp⟩ := absorb_spec (P := P) (W := W) (J := J) (n := n) false a order
    (n.inbound.handleCompactPacket P pkt.1 pkt.2 a)
  exact ⟨hm.trans (Inbound.handleCompactPacket_memory P n.inbound hty), hp⟩

theorem packets_memory : (n.packets rs buf a).1.inbound.memory = n.inbound.memory := by
  unfold packets
  split <;> rfl

theorem dispatchControl_jack (hopen : s.core.hasCrypto = false) (body : Bytes) (a : Arrival) :
    (s.dispatchControl P pktJack body false a).2 = [.dispatchControl pktJack body a.fromEp] := by
  unfold Inbound.dispatchControl Engine.admitControl
  rw [hopen]
  rfl

theorem inbound_reliable_eq (hseq : reliableSeq? body = some seq) : s.handleReliablePacket P body a =
      let s := s.pruneReliableSeenCache a.now
      let dk := s.reliableDedupKey a.fromEp
      if (dk, seq) ∈ s.reliableSeen then (s, [])
      else
        let s := (s.noteReliableSeen dk seq a.now).touch a
        if s.core.hasCrypto then (s, []) else s.dispatchControl P pktJack (body.drop 5) false a := by
  unfold Inbound.handleReliablePacket
  unfold reliableSeq? at hseq
  by_cases hlen : body.length < 5
  · rw [if_pos hlen] at hseq
    cases hseq
  rw [if_neg hlen] at hseq ⊢
  by_cases hinner : (body[4]?).bind CompactPacketType.tryFromByte = some .joinAck
  · rw [if_neg (not_not_intro hinner)] at hseq ⊢
    obtain rfl := Option.some.inj hseq
    rfl
  rw [if_pos hinner] at hseq
  cases hseq

theorem handleReliablePacket_cases (hseq : reliableSeq? body = some seq) {order : IterOrder} :
    let s := n.inbound.pruneReliableSeenCache a.now
    let dk := n.inbound.reliableDedupKey a.fromEp
    let r := n.handleReliablePacket P W J body a order
    ((dk, seq) ∈ s.reliableSeen ∧ r.1.inbound.memory = s.memory ∧
      ∃ rest, (∀ o ∈ rest, o.isPlain) ∧ r.2 = .ack a.fromEp (Reliable.ackPacket seq) :: rest) ∨
      ((dk, seq) ∉ s.reliableSeen ∧ r.1.inbound.memory = (s.noteReliableSeen dk seq a.now).memory ∧
        ∃ rest, (∀ o ∈ rest, o.isPlain) ∧ r.2 = .ack a.fromEp (Reliable.ackPacket seq) ::
          ((if n.inbound.core.hasCrypto then [] else [.delivered seq (body.drop 5) a.fromEp]) ++ rest)) := by
  intro s dk r
  obtain ⟨hm, hp⟩ :=
    absorb_spec (P := P) (W := W) (J := J) (n := n) false a order (n.inbound.handleReliablePacket P body a)
  have hr : r = ((n.absorb P W J false a order (n.inbound.handleReliablePacket P body a)).1,
      .ack a.fromEp (Reliable.ackPacket seq) :: (((n.inbound.handleReliablePacket P body a).2.map fun _ =>
        Output.delivered seq (body.drop 5) a.fromEp) ++
          (n.absorb P W J false a order (n.inbound.handleReliablePacket P body a)).2)) := by
    show n.handleReliablePacket P W J body a order = _
    unfold handleReliablePacket
    rw [hseq]
    rfl
  rw [hr]
  by_cases hseen : (dk, seq) ∈ s.reliableSeen
  · left
    have heq : n.inbound.handleReliablePacket P body a = (s, []) := by
      rw [inbound_reliable_eq hseq]
      exact if_pos hseen
    rw [heq] at hm hp ⊢
    exact ⟨hseen, hm, _, hp, rfl⟩
  right
  have heq : n.inbound.handleReliablePacket P body a =
      if n.inbound.core.hasCrypto then ((s.noteReliableSeen dk seq a.now).touch a, [])
      else ((s.noteReliableSeen dk seq a.now).touch a).dispatchControl P pktJack (body.drop 5) false a := by
    rw [inbound_reliable_eq hseq]
    exact if_neg hseen
  refine ⟨hseen, ?_, _, hp, ?_⟩
  · refine hm.trans ?_
    rw [heq]
    split
    · rfl
    exact Inbound.acts_dispatchControl.memory
  refine congrArg (List.cons _) (congrArg (· ++ _) ?_)
  rw [heq]
  cases hcrypto : n.inbound.core.hasCrypto with
  | true => rfl
  | false =>
    have hout :=
      dispatchControl_jack (P := P) (s := (s.noteReliableSeen dk seq a.now).touch a) hcrypto (body.drop 5) a
    rw [if_neg Bool.false_ne_true, hout]
    rfl

/-! ## All packets of a run -/

def Output.delivers (ep : SocketAddr) (seq : UInt32) : Output → Bool
  | .delivered seq' _ fromEp => seq' = seq && fromEp = ep
  | _ => false

theorem countP_delivers_plain {ep : SocketAddr} (h : ∀ o ∈ l, o.isPlain) : l.countP (Output.delivers ep seq) = 0 := by
  refine List.countP_eq_zero.mpr fun o ho => ?_
  have hp := h o ho
  cases o with
  | engine | member => exact Bool.false_ne_true
  | ack | delivered => cases hp

structure Once (ep : SocketAddr) (seq : UInt32) (dk : ReliableDedupKey) (start now : Instant) (s : Inbound γ)
    (log : List Output) : Prop where
  remembers : s.Remembers
  fate : log.countP (Output.delivers ep seq) = 0 ∨ log.countP (Output.delivers ep seq) = 1 ∧
    (start + secs 60 ≤ now ∨ ∃ t, start ≤ t ∧ (t, dk, seq) ∈ s.reliableSeenTimeline)

def IsCopy (ep : SocketAddr) (seq : UInt32) (a : Arrival) (pkt : CompactPacketType × Bytes) : Prop :=
  pkt.1 = .reliable ∧ reliableSeq? pkt.2 = some seq ∧ a.fromEp = ep

structure SteadyPacket (ep : SocketAddr) (seq : UInt32) (dk : ReliableDedupKey) (start : Instant) (a : Arrival)
    (n : Host γ) (pkt : CompactPacketType × Bytes) : Prop where
  room : pkt.1 = .reliable → n.inbound.reliableSeenTimeline.length ≤ 16384
  window : IsCopy ep seq a pkt → start ≤ a.now ∧ a.now < start + secs 60
  key : IsCopy ep seq a pkt → n.inbound.reliableDedupKey ep = dk

variable {ep : SocketAddr} {seq : UInt32} {dk : ReliableDedupKey} {start now : Instant} {s s' : Inbound γ}
  {log : List Output}

section
variable (h : Once ep seq dk start now s log)
include h

theorem Once.later {now' : Instant} (hnow : now ≤ now') : Once ep seq dk start now' s log where
  remembers := h.remembers
  fate := h.fate.imp_right fun hf => ⟨hf.1, hf.2.imp_left fun hlate => Nat.le_trans hlate hnow⟩

theorem Once.of_memory (hm : s'.memory = s.memory) : Once ep seq dk start now s' log where
  remembers := h.remembers.of_memory hm
  fate := by rw [(Prod.mk.inj hm).2]; exact h.fate

theorem Once.append (hzero : out.countP (Output.delivers ep seq) = 0) : Once ep seq dk start now s (log ++ out) where
  remembers := h.remembers
  fate := by rw [List.countP_append, hzero, Nat.add_zero]; exact h.fate

theorem Once.prune (hroom : s.reliableSeenTimeline.length ≤ 16384) :
    Once ep seq dk start now (s.pruneReliableSeenCache now) log where
  remembers := h.remembers.prune
  fate := by
    refine h.fate.imp_right fun hf => ⟨hf.1, ?_⟩
    rcases hf.2 with hlate | ⟨t, ht, hmem⟩
    · exact .inl hlate
    by_cases hyoung : now < t + secs 60
    · exact .inr ⟨t, ht, Inbound.mem_prune hroom hmem hyoung⟩
    exact .inl ((Nat.add_le_add_right ht _).trans (Nat.le_of_not_lt hyoung))

theorem Once.note {dk' : ReliableDedupKey} (hnew : (dk', seq') ∉ s.reliableSeen)
    (hout : out.countP (Output.delivers ep seq) = 0 ∨ out.countP (Output.delivers ep seq) = 1 ∧
      start ≤ now ∧ now < start + secs 60 ∧ dk' = dk ∧ seq' = seq) :
    Once ep seq dk start now (s.noteReliableSeen dk' seq' now) (log ++ out) where
  remembers := h.remembers.note hnew
  fate := by
    rw [List.countP_append]
    rcases hout with hnone | ⟨hone, hstart, hwin, rfl, rfl⟩
    · rw [hnone, Nat.add_zero]
      refine h.fate.imp_right fun hf => ⟨hf.1, hf.2.imp_right fun ⟨t, ht, hmem⟩ => ?_⟩
      exact ⟨t, ht, List.mem_append_left _ hmem⟩
    rcases h.fate with hzero | ⟨_, hlate | ⟨t, ht, hmem⟩⟩
    · rw [hzero, hone]
      exact .inr ⟨rfl, .inr ⟨now, hstart, List.mem_append_right _ (List.mem_singleton.mpr rfl)⟩⟩
    · exact absurd hwin (Nat.not_lt.mpr hlate)
    exact absurd ((h.remembers.mem_iff _).mpr (List.mem_map_of_mem hmem)) hnew

end

theorem countP_delivers_cons_ack {dest : SocketAddr} {packet : Bytes} :
    (Output.ack dest packet :: l).countP (Output.delivers ep seq) = l.countP (Output.delivers ep seq) :=
  List.countP_cons_of_neg Bool.false_ne_true

theorem countP_delivers_new {crypto : Bool} {fromEp : SocketAddr} {rest : List Output}
    (hp : ∀ o ∈ rest, o.isPlain) : ((if crypto then [] else [Output.delivered seq' body fromEp]) ++ rest).countP
    (Output.delivers ep seq) = 0 ∨ ((if crypto then [] else [Output.delivered seq' body fromEp]) ++ rest).countP
    (Output.delivers ep seq) = 1 ∧ seq' = seq ∧ fromEp = ep := by
  rw [List.countP_append, countP_delivers_plain hp, Nat.add_zero]
  cases crypto with
  | true => exact .inl rfl
  | false =>
    by_cases hcopy : seq' = seq ∧ fromEp = ep
    · right
      refine ⟨List.countP_cons_of_pos ?_, hcopy⟩
      simp [Output.delivers, hcopy]
    left
    refine List.countP_cons_of_neg fun hd => hcopy ?_
    simpa [Output.delivers] using hd

variable {a : Arrival} {order : IterOrder} {pkt : CompactPacketType × Bytes}

section
variable (h : Once ep seq dk start a.now n.inbound log) (hok : SteadyPacket ep seq dk start a n pkt)
include h hok

theorem Once.reliable
    (hty : pkt.1 = .reliable) : Once ep seq dk start a.now (n.handleReliablePacket P W J pkt.2 a order).1.inbound
    (log ++ (n.handleReliablePacket P W J pkt.2 a order).2) := by
  cases hseq : reliableSeq? pkt.2 with
  | none =>
    unfold handleReliablePacket
    rw [hseq]
    exact h.append rfl
  | some seq' =>
    have hpruned := h.prune (hok.room hty)
    rcases handleReliablePacket_cases (P := P) (W := W) (J := J) hseq with
      ⟨_, hm, rest, hp, hr⟩ | ⟨hnew, hm, rest, hp, hr⟩
    · rw [hr]
      refine (hpruned.of_memory hm).append ?_
      rw [countP_delivers_cons_ack]
      exact countP_delivers_plain hp
    rw [hr]
    refine (hpruned.note hnew ?_).of_memory hm
    rw [countP_delivers_cons_ack]
    refine (countP_delivers_new hp).imp_right fun ⟨hone, hs, he⟩ => ?_
    have hcopy : IsCopy ep seq a pkt := ⟨hty, hs ▸ hseq, he⟩
    obtain ⟨hstart, hwin⟩ := hok.window hcopy
    exact ⟨hone, hstart, hwin, he ▸ hok.key hcopy, hs⟩

theorem Once.packet : Once ep seq dk start a.now (handleCompactPacket P W J a order n pkt).1.inbound
    (log ++ (handleCompactPacket P W J a order n pkt).2) := by
  by_cases hty : pkt.1 = .reliable
  · unfold handleCompactPacket
    rw [if_pos hty]
    exact h.reliable hok hty
  obtain ⟨hm, hp⟩ := handleCompactPacket_spec (P := P) (W := W) (J := J) (n := n) hty a order
  exact (h.of_memory hm).append (countP_delivers_plain hp)

end

/-- The condition on an event: it is no session reset, and each packet of a datagram is steady when its turn comes. -/
def Steady (P : Primitives) (W : WireText) (J : JsonText) (rs : Codec γ UInt8) (ep : SocketAddr) (seq : UInt32)
    (dk : ReliableDedupKey) (start : Instant) (s : Instant × Host γ) (act : Nat × Event) : Prop :=
  match act.2 with
  | .datagram buf a order =>
    let a := { a with now := s.1 + act.1 }
    let p := s.2.packets rs buf a
    Each (handleCompactPacket P W J a order) p.1 p.2 (SteadyPacket ep seq dk start a)
  | .membership _ _ => True
  | .command ev => ev ≠ .resetSession

theorem Once.datagram (h : Once ep seq dk start a.now n.inbound log)
    (hok : Each (handleCompactPacket P W J a order) (n.packets rs buf a).1 (n.packets rs buf a).2
      (SteadyPacket ep seq dk start a)) :
    Once ep seq dk start a.now (n.handlePacket P W J rs buf a order).1.inbound
      (log ++ (n.handlePacket P W J rs buf a order).2) := by
  unfold handlePacket
  split
  · rename_i tag body _
    obtain ⟨hm, hp⟩ := absorb_spec (P := P) (W := W) (J := J) (n := n) (tag = pktCtsig) a order
      (n.inbound.handleParsedPacket P tag body a)
    exact (h.of_memory (hm.trans (Inbound.handleParsedPacket_memory P _))).append (countP_delivers_plain hp)
  refine trace_invariant (I := fun (n' : Host γ) out => Once ep seq dk start a.now n'.inbound (log ++ out))
    (fun n' out pkt hpkt hI => ?_) ?_ hok
  · rw [← List.append_assoc]
    exact hI.packet hpkt
  rw [List.append_nil]
  exact h.of_memory packets_memory

theorem Once.step (h : Once ep seq dk start now n.inbound log) {act : Nat × Event}
    (hok : Steady P W J rs ep seq dk start (now, n) act) : Once ep seq dk start (timedStep P W J rs (now, n) act).1.1
    (timedStep P W J rs (now, n) act).1.2.inbound (log ++ (timedStep P W J rs (now, n) act).2) := by
  obtain ⟨wait, ev⟩ := act
  have hlater := h.later (Nat.le_add_right now wait)
  have hplain : ∀ (n' : Host γ) (out : List Output), n'.inbound.memory = n.inbound.memory → (∀ o ∈ out, o.isPlain) →
      Once ep seq dk start (now + wait) n'.inbound (log ++ out) :=
    fun n' out hm hp => (hlater.of_memory hm).append (countP_delivers_plain hp)
  cases ev with
  | datagram buf a order => exact Once.datagram (a := { a with now := now + wait }) hlater hok
  | membership env ev => exact hplain _ _ rfl (isPlain_of_mem_map fun _ => rfl)
  | command ev =>
    cases ev with
    | resetSession => exact absurd rfl hok
    | _ => exact hplain _ _ rfl (isPlain_of_mem_map fun _ => rfl)

/-- A reliable packet whose copies all find the same key is handed on at most once. -/
theorem delivered_at_most_once (P : Primitives) (W : WireText) (J : JsonText) (rs : Codec γ UInt8) (n : Host γ)
    (hfresh : n.inbound.memory = ([], [])) (now : Instant) (acts : List (Nat × Event)) (ep : SocketAddr)
    (seq : UInt32) (dk : ReliableDedupKey) (start : Instant)
    (hok : Each (timedStep P W J rs) (now, n) acts (Steady P W J rs ep seq dk start)) :
    (trace (timedStep P W J rs) (now, n) acts).countP (Output.delivers ep seq) ≤ 1 := by
  have h := trace_invariant (I := fun (s : Instant × Host γ) log => Once ep seq dk start s.1 s.2.inbound log)
    (fun s log act hact hI => Once.step (n := s.2) hI hact)
    ⟨.of_nil hfresh, .inl rfl⟩ hok
  rcases h.fate with hzero | ⟨hone, _⟩
  · exact hzero.trans_le (Nat.zero_le 1)
  exact hone.le

end

/-! ### A join ack and its second copy -/

open Inbound (peerEp oneRoute oneRouteEngine noCodec)

def plainText : WireText := ⟨fun _ => "", fun _ => none, fun _ _ _ _ => 0⟩

/-- Every body reads as the join ack of one node. -/
def oneJoinAck : JsonText :=
  ⟨fun _ => some ⟨some wireProtocolVersion, "b", "10.0.0.2", 1, none⟩, fun _ => none, fun _ => none⟩

/-- A node without keys. -/
def openHost (rt : RoutingTable) : Host Unit :=
  let core := Engine.new rt 0x0A000001 "a" 24 0
  ⟨{ oneRouteEngine "" with core := core }, .new core 8192 0, rfl⟩

def arrivalOf (ep : SocketAddr) : Arrival := ⟨ep, 0, 0, 0, fun _ => 0, fun t => t.table.keys, .asStored⟩

def copyAfter (wait : Nat) : Nat × Event :=
  (wait, .datagram (Reliable.reliablePacket 1 .joinAck []) (arrivalOf peerEp) .asStored)

theorem copyAfter_steady {n : Host Unit} {now wait : Nat} (hroom : n.inbound.reliableSeenTimeline.length ≤ 16384)
    (hwin : now + wait < secs 60) (hkey : n.inbound.reliableDedupKey peerEp = dk) : Steady .transparent plainText
    oneJoinAck noCodec peerEp 1 dk 0 (now, n) (copyAfter wait) := by
  intro i pkt hpkt
  cases i with
  | zero => exact ⟨fun _ => hroom, fun _ => ⟨Nat.zero_le _, (Nat.zero_add (secs 60)).symm ▸ hwin⟩, fun _ => hkey⟩
  | succ i => cases hpkt

/-- The route of the sender is known before the first copy. -/
theorem known_sender_delivered_once :
    (trace (timedStep .transparent plainText oneJoinAck noCodec) (0, openHost (oneRoute "b"))
      [copyAfter 0, copyAfter (secs 1)]).countP (Output.delivers peerEp 1) ≤ 1 := by
  refine delivered_at_most_once .transparent plainText oneJoinAck noCodec (openHost (oneRoute "b")) rfl 0 _ peerEp 1
    (.vipU32 0x0A000002) 0 ?_
  intro i act hact
  cases i with
  | zero =>
    obtain rfl := Option.some.inj hact
    exact copyAfter_steady (by decide +kernel) (by decide) (by decide +kernel)
  | succ i =>
    cases i with
    | zero =>
      obtain rfl := Option.some.inj hact
      exact copyAfter_steady (by decide +kernel) (by decide +kernel) (by decide +kernel)
    | succ i => cases hact

/-- The first copy teaches the route of its sender; the second one is handed on again. -/
theorem second_copy_delivered :
    (openHost (.new 0)).inbound.core.hasCrypto = false ∧ (openHost (.new 0)).inbound.memory = ([], []) ∧
    (trace (timedStep .transparent plainText oneJoinAck noCodec) (0, openHost (.new 0))
      [copyAfter 0, copyAfter (secs 1)]).countP (Output.delivers peerEp 1) = 2 :=
  ⟨rfl, rfl, by decide +kernel⟩

end Host

end ConnectUnit
