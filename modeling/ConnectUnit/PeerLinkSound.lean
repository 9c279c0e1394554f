import ConnectUnit.PeerLink
import ConnectUnit.Ciphers
import ConnectUnit.RoutingSound

/-!
# Every frame that arrives is accepted

The invariant of the link: what each engine knows, the order of the counters
under way, and that whatever the replay window of `b` blocks is behind all
frames of its epoch still to come.
-/

namespace ConnectUnit

variable {P : Primitives} {aead : DataPlaneAead} {frame body : Bytes} {p : DataPlane} {mv : DataMove}
variable {fromEp : SocketAddr} {n : Nat} {wire : List (Nat × Bytes)} {now : Instant} {ev : Instant × LinkEvent}
variable {payload : Bytes} {pre : Nat}

/-! ## Routes of one peer -/

namespace RoutingTable

def OnlyVip (vip : String) (t : RoutingTable) : Prop := ∀ ep v, t.epToVip.lookup ep = some v → v = vip

variable {t : RoutingTable} {vip : String}

section
variable (h : t.OnlyVip vip)
include h

theorem OnlyVip.remove (v : String) (now : Instant) : (t.remove v now).OnlyVip vip := by
  intro ep v' hl
  rw [remove_ep] at hl
  split at hl
  · cases hl
  exact h ep v' hl

theorem OnlyVip.place (ep : SocketAddr) (nodeId : Option String) (now : Instant) :
    (t.place vip ep nodeId now).OnlyVip vip := by
  intro ep' v hl
  rw [place_ep] at hl
  split at hl
  · cases hl; rfl
  split at hl
  · cases hl
  exact h ep' v hl

theorem OnlyVip.dropEp (ep : SocketAddr) : OnlyVip vip { t with epToVip := t.epToVip.erase ep } := by
  intro ep' v hl
  rw [HashMap.lookup_erase_eq] at hl
  split at hl
  · cases hl
  exact h ep' v hl

theorem OnlyVip.pruneIfDue (now : Instant) : (t.pruneIfDue now).OnlyVip vip := by
  unfold RoutingTable.pruneIfDue
  split <;> exact h

theorem OnlyVip.update {ep : SocketAddr} {nodeId : Option String} : (t.update vip ep nodeId now).OnlyVip vip := by
  have hp := h.pruneIfDue now
  unfold RoutingTable.update
  dsimp only
  split
  · exact hp.place ep nodeId now
  · exact hp
  · exact (hp.remove _ now).place ep nodeId now
  · exact (hp.dropEp ep).place ep nodeId now

end

theorem OnlyVip.removeAll (vips : List String) (now : Instant) (t : RoutingTable) (h : t.OnlyVip vip) :
    (t.removeAll vips now).OnlyVip vip := by
  induction vips generalizing t with
  | nil => exact h
  | cons v vips ih => exact ih _ (h.remove v now)

theorem OnlyVip.stampRelayPath (h : t.OnlyVip vip) {dest my : String} {order : List String} :
    (Engine.stampRelayPath t dest my order now).OnlyVip vip := by
  unfold Engine.stampRelayPath stampRelayHop clearRelayPath
  split
  · split
    · exact h
    · dsimp only; rw [rebuild_eq]; exact h
  · dsimp only; rw [rebuild_eq]; exact h

end RoutingTable

/-! ## One node -/

def frameCounter (frame : Bytes) : Nat := decodeWireCounter ((frame.drop 1).take wireCounterLen)

def SealedFrame (P : Primitives) (key : Key) (na nb : Node) (frame : Bytes) : Prop :=
  ∃ aead payload, deriveDataPlaneMaterial P key na.addr nb.addr = some aead ∧
    aead.encryptFramedPacketInto P (frameCounter frame) (dataAad na.addr nb.addr) payload = some frame

theorem frameCounter_of_encrypt {c : Nat} {aad : Bytes}
    (h : aead.encryptFramedPacketInto P c aad payload = some frame) : frameCounter frame = c := by
  obtain ⟨wire, hw, rfl⟩ := Option.map_eq_some_iff.mp h
  obtain ⟨hdec, hlen⟩ := decode_encodeWireCounter hw
  unfold frameCounter
  rw [List.drop_one, List.tail_cons, List.take_left' hlen]
  exact hdec

namespace DataPlane

def KeepsKey : DataMove → Prop
  | .install _ => False
  | .rekey _ => False
  | _ => True

theorem primary_step (hk : KeepsKey mv) : (p.step P mv).1.primary = p.primary := by
  cases mv with
  | install key => cases hk
  | rekey key => cases hk
  | _ => rfl

theorem keepsCache_of_keepsKey (hk : KeepsKey mv) : p.KeepsCache mv := by
  cases mv with
  | rekey key => cases hk
  | _ => trivial

end DataPlane

namespace Engine

structure Ready (P : Primitives) (key : Key) (me peer : Node) (e : Engine) : Prop where
  primary : e.dataPlane.primary = some key
  coherent : e.dataPlane.Coherent P
  addr : e.myVipU32 = me.addr
  only : e.routing.OnlyVip peer.vip

variable {P : Primitives} {key : Key} {me peer : Node} {e : Engine}

namespace Ready

section
variable (h : e.Ready P key me peer)
include h

theorem resolves {ep : SocketAddr} {u : UInt32} (hr : e.endpointToVipU32 ep = some u) : u = peer.addr := by
  obtain ⟨v, hv, hu⟩ := Option.bind_eq_some_iff.mp hr
  rw [h.only ep v hv, peer.parses] at hu
  exact (Option.some.inj hu).symm

theorem hasCrypto : e.hasCrypto = true := by
  have hp := h.primary
  unfold dataPlane dataPlanePrimaryKey at hp
  unfold Engine.hasCrypto CryptoPool.hasAny
  cases hk : e.cryptoKeys.primary with
  | none => rw [hk] at hp; cases hp
  | some k => rfl

theorem event {ev : Instant × Event} (hk : DataPlane.KeepsKey (e.dataMove P ev))
    (haddr : (e.step P ev).1.myVipU32 = e.myVipU32) (honly : (e.step P ev).1.routing.OnlyVip peer.vip) :
    (e.step P ev).1.Ready P key me peer := by
  have hstep := (step_dataPlane P e ev).1
  refine ⟨?_, ?_, haddr.trans h.addr, honly⟩
  · rw [hstep, DataPlane.primary_step hk, h.primary]
  rw [hstep]
  exact h.coherent.step (DataPlane.keepsCache_of_keepsKey hk)

/-! ### Sending -/

theorem sendMenc_move {dest : SocketAddr} : e.dataMove P
    (now, .sendMenc dest payload) = if (e.endpointToVipU32 dest).isSome then .encrypt me.addr peer.addr payload else
    .keep := by
  simp only [dataMove, h.hasCrypto, Bool.not_true, Bool.false_eq_true, if_false]
  cases hr : e.endpointToVipU32 dest with
  | none => rfl
  | some u => simp [h.addr, h.resolves hr, me.assigned]

theorem sendMenc (now : Instant) (dest : SocketAddr) (payload : Bytes) :
    (e.step P (now, .sendMenc dest payload)).1.Ready P key me peer := by
  refine h.event ?_ ?_ ?_
  · rw [h.sendMenc_move]
    split <;> trivial
  · simp only [step, Engine.sendMenc]
    repeat (split; · rfl)
    rfl
  have hsame : (e.step P (now, .sendMenc dest payload)).1.routing = e.routing := by
    simp only [step, Engine.sendMenc]
    repeat (split; · rfl)
    rfl
  rw [hsame]; exact h.only

theorem framesTo_sendMenc (now : Instant) (payload : Bytes) : Link.framesTo peer.ep
    (e.step P (now, .sendMenc peer.ep payload)).2 = [] ∨ ∃ frame, Link.framesTo peer.ep
    (e.step P (now, .sendMenc peer.ep payload)).2 = [frame] ∧ SealedFrame P key me peer frame ∧ frameCounter frame =
    e.dataPlane.counter peer.addr ∧ (e.step P (now, .sendMenc peer.ep payload)).1.dataPlane.counter peer.addr =
    frameCounter frame + 1 := by
  have hstep := (step_dataPlane P e (now, .sendMenc peer.ep payload)).1
  rw [h.sendMenc_move] at hstep
  rw [hstep]
  simp only [step, Engine.sendMenc, h.hasCrypto, Bool.not_true, Bool.false_eq_true, if_false]
  cases hr : e.endpointToVipU32 peer.ep with
  | none => exact .inl rfl
  | some u =>
    obtain rfl := h.resolves hr
    simp only [Option.isSome_some, if_true, h.addr, me.assigned, if_false, Engine.encryptFramedPacketReuse]
    cases hf : (e.data.encryptFramedPacketReuse P e.dataPlanePrimaryKey me.addr peer.addr payload).2.2 with
    | none =>
      refine .inl ?_
      unfold sealDataOutput
      split <;> rfl
    | some frame =>
      obtain ⟨aead, c, hcall, hframe⟩ := DataCrypto.encrypt_frame P _ hf
      obtain ⟨hc, hnext, hcipher⟩ := DataCrypto.encrypt_call P _ hcall
      have hfc := frameCounter_of_encrypt hframe
      refine .inr ⟨frame, ?_, ⟨aead, payload, ?_, hfc ▸ hframe⟩, hfc.trans hc, ?_⟩
      · rw [hcall]
        simp [sealDataOutput, Link.framesTo]
      · rw [← h.coherent.cipherFor_eq h.primary]; exact hcipher
      unfold DataPlane.counter DataPlane.step
      dsimp only
      rw [DataCrypto.encrypt_sendCtr, hfc]
      exact congrArg (Option.getD · 0) hnext

/-! ### Receiving -/

theorem encrypted_move
    (hlen : ¬ body.length < wireCounterLen + dataTagLen) : e.dataMove P (now, .encrypted body fromEp) = if
    (e.endpointToVipU32 fromEp).isSome then .receive peer.addr me.addr body else .keep := by
  simp only [dataMove, hlen, if_false]
  cases hr : e.endpointToVipU32 fromEp with
  | none => rfl
  | some u => simp [h.addr, h.resolves hr, me.assigned]

end

theorem encrypted_same (e : Engine) (now : Instant) (body : Bytes) (fromEp : SocketAddr) :
    (e.step P (now, .encrypted body fromEp)).1.myVipU32 = e.myVipU32 ∧
    (e.step P (now, .encrypted body fromEp)).1.routing = e.routing := by
  simp only [step, handleEncrypted]
  repeat (split; · exact ⟨rfl, rfl⟩)
  exact ⟨rfl, rfl⟩

theorem encrypted (h : e.Ready P key me peer) (now : Instant) (fromEp : SocketAddr)
    (hlen : ¬ body.length < wireCounterLen + dataTagLen) :
    (e.step P (now, .encrypted body fromEp)).1.Ready P key me peer := by
  obtain ⟨haddr, hrouting⟩ := encrypted_same (P := P) e now body fromEp
  refine h.event ?_ haddr (hrouting ▸ h.only)
  rw [h.encrypted_move hlen]
  split <;> trivial

theorem encrypted_unrouted
    (hr : e.endpointToVipU32 fromEp = none) : e.step P (now, .encrypted body fromEp) = (e, []) := by
  simp only [step, handleEncrypted, hr]
  split <;> rfl

theorem encrypted_accepts (h : e.Ready P key me peer) (now : Instant) {plain : Bytes}
    (hlen : ¬ body.length < wireCounterLen + dataTagLen)
    (hr : (e.endpointToVipU32 fromEp).isSome) (hd : deriveDataPlaneMaterial P key peer.addr me.addr = some aead)
    (hopen : aead.decryptFramedPayloadInto P (body.take wireCounterLen) (dataAad peer.addr me.addr)
      (body.drop wireCounterLen) = some plain)
    (hallow : ¬ e.dataPlane.Blocked peer.addr (decodeWireCounter (body.take wireCounterLen))) :
    (e.step P (now, .encrypted body fromEp)).2 = [.handleMdatLike plain fromEp] ∧
      ∀ c, (e.step P (now, .encrypted body fromEp)).1.dataPlane.Blocked peer.addr c ↔
        c = decodeWireCounter (body.take wireCounterLen) ∨
          c + dataReplayWindowBits ≤ decodeWireCounter (body.take wireCounterLen) ∨
          e.dataPlane.Blocked peer.addr c := by
  have hcipher : (e.data.dataPlaneCipher P e.dataPlanePrimaryKey peer.addr me.addr).2 = some aead :=
    (h.coherent.cipherFor_eq h.primary).trans hd
  have hallowed : e.data.replayAllows peer.addr (decodeWireCounter (body.take wireCounterLen)) = true :=
    Bool.eq_true_of_not_eq_false hallow
  have hopened := DataCrypto.openFrame_accepts P e.dataPlanePrimaryKey hallowed hcipher hopen
  obtain ⟨u, hu⟩ := Option.isSome_iff_exists.mp hr
  obtain rfl := h.resolves hu
  have hstep : e.step P (now, .encrypted body fromEp) =
      ({ e with data := (e.data.openFrame P e.dataPlanePrimaryKey peer.addr me.addr body).1 },
        [.handleMdatLike plain fromEp]) := by
    simp only [step, handleEncrypted, hlen, if_false, hu, h.addr, me.assigned, hopened, mdatOutput]
  rw [hstep]
  refine ⟨rfl, fun c => ?_⟩
  rcases DataCrypto.openFrame_replay P e.dataPlanePrimaryKey with hno | hcommit
  · rw [hopened] at hno; cases hno.2
  have hw := DataCrypto.replayAllows_commitReplay e.data peer.addr peer.addr c
    (decodeWireCounter (body.take wireCounterLen))
  rw [← DataCrypto.replayAllows_congr hcommit] at hw
  refine hw.trans ?_
  rw [eq_self, true_and, or_assoc]
  rfl

/-! ### Routes -/

theorem route_same {ev : RouteEvent} : (e.step P (now, ev.event peer)).1.myVipU32 = e.myVipU32 := by
  cases ev with
  | learn nodeId order =>
    simp only [step, RouteEvent.event, updateRoute]
    split <;> rfl
  | leave nodeId pick =>
    simp only [step, RouteEvent.event, Engine.leave, onPeerRouteRemoved_eq]
    split <;> rfl
  | lostFight nodeId =>
    simp only [step, RouteEvent.event, vipFight, onPeerRouteRemoved_eq]
    split <;> rfl
  | staleEvict staleMark staleAge order =>
    simp only [step, RouteEvent.event, Engine.staleEvict, routesRemoved_eq]

theorem route_only (h : e.Ready P key me peer) {ev : RouteEvent} :
    (e.step P (now, ev.event peer)).1.routing.OnlyVip peer.vip := by
  cases ev with
  | learn nodeId order =>
    simp only [step, RouteEvent.event, updateRoute]
    split
    · exact h.only
    exact (h.only.update).stampRelayPath
  | leave nodeId pick =>
    simp only [step, RouteEvent.event, Engine.leave, onPeerRouteRemoved_eq]
    split
    · exact h.only
    exact h.only.remove peer.vip now
  | lostFight nodeId =>
    simp only [step, RouteEvent.event, vipFight, onPeerRouteRemoved_eq]
    split
    · exact h.only
    exact h.only.remove peer.vip now
  | staleEvict staleMark staleAge order =>
    simp only [step, RouteEvent.event, Engine.staleEvict, routesRemoved_eq]
    exact RoutingTable.OnlyVip.removeAll _ now (e.routing.markStaleIfIdle staleMark now) h.only

theorem route_move (e : Engine) (now : Instant) (ev : RouteEvent) (peer : Node) :
    ∃ vips, e.dataMove P (now, ev.event peer) = .forget vips := by
  cases ev <;> exact ⟨_, rfl⟩

theorem route (h : e.Ready P key me peer) {ev : RouteEvent} :
    (e.step P (now, ev.event peer)).1.Ready P key me peer := by
  obtain ⟨vips, hmv⟩ := route_move e now ev peer
  exact h.event (by rw [hmv]; trivial) route_same h.route_only

end Ready

end Engine

/-! ## The link -/

namespace Link

structure Used (nb : Node) (s : Link) (m c : Nat) : Prop where
  epoch : m ≤ s.epoch
  next : m = s.epoch → c < s.a.dataPlane.counter nb.addr

structure Behind (nb : Node) (s : Link) (m c : Nat) : Prop extends s.Used nb m c where
  wire : ∀ p ∈ s.wire, p.1 = m → c < frameCounter p.2

structure Inv (P : Primitives) (key : Key) (na nb : Node) (s : Link) : Prop where
  readyA : s.a.Ready P key na nb
  readyB : s.b.Ready P key nb na
  frames : ∀ p ∈ s.wire, SealedFrame P key na nb p.2 ∧ s.Used nb p.1 (frameCounter p.2)
  ordered : s.wire.Pairwise fun p q => p.1 = q.1 → frameCounter p.2 < frameCounter q.2
  window : ∀ c, s.b.dataPlane.Blocked na.addr c → ∃ m, s.accepted = some m ∧ s.Behind nb m c

structure Advances (nb : Node) (s s' : Link) : Prop where
  epoch : s.epoch ≤ s'.epoch
  next : s'.epoch = s.epoch → s.a.dataPlane.counter nb.addr ≤ s'.a.dataPlane.counter nb.addr
  wire : ∀ p ∈ s'.wire, p ∈ s.wire ∨ p.1 = s.epoch ∧ s.a.dataPlane.counter nb.addr ≤ frameCounter p.2

section
variable {P : Primitives} {key : Key} {na nb : Node} {s s' : Link} {m c : Nat}

theorem Used.advance (h : s.Used nb m c) (hs : Advances nb s s') : s'.Used nb m c where
  epoch := h.epoch.trans hs.epoch
  next hm := by
    have hsame : s'.epoch = s.epoch := by have := h.epoch; have := hs.epoch; omega
    exact Nat.lt_of_lt_of_le (h.next (by omega)) (hs.next hsame)

theorem Behind.advance (h : s.Behind nb m c) (hs : Advances nb s s') : s'.Behind nb m c where
  toUsed := h.toUsed.advance hs
  wire p hp hm := by
    rcases hs.wire p hp with hold | ⟨hnew, hc⟩
    · exact h.wire p hold hm
    exact Nat.lt_of_lt_of_le (h.next (hm.symm.trans hnew)) hc

theorem Behind.mono (h : s.Behind nb m c) {c' : Nat} (hc : c' ≤ c) : s.Behind nb m c' where
  epoch := h.epoch
  next hm := Nat.lt_of_le_of_lt hc (h.next hm)
  wire p hp hm := Nat.lt_of_le_of_lt hc (h.wire p hp hm)

theorem advances_of_same (ha : s'.a = s.a) (he : s'.epoch = s.epoch) (hw : ∀ p ∈ s'.wire, p ∈ s.wire) :
    Advances nb s s' where
  epoch := he.ge
  next _ := by rw [ha]
  wire p hp := .inl (hw p hp)

/-! ### Sending -/

theorem advances_send (h : s.Inv P key na nb) (payload : Bytes) (now : Instant) :
    Advances nb s (s.sendFrame P nb payload now) where
  epoch := le_rfl
  next _ := by
    have hstep := (Engine.step_dataPlane P s.a (now, .sendMenc nb.ep payload)).1
    simp only [sendFrame, hstep]
    refine DataPlane.counter_le_step _ ?_
    rw [h.readyA.sendMenc_move]
    split <;> exact id
  wire p hp := by
    rcases List.mem_append.mp hp with hp | hp
    · exact .inl hp
    obtain ⟨frame, hframe, rfl⟩ := List.mem_map.mp hp
    rcases h.readyA.framesTo_sendMenc now payload with hno | ⟨frame', hone, _, hc, _⟩
    · rw [hno] at hframe; cases hframe
    rw [hone, List.mem_singleton] at hframe
    subst hframe
    exact .inr ⟨rfl, hc.ge⟩

theorem Inv.send (h : s.Inv P key na nb) : (s.sendFrame P nb payload now).Inv P key na nb := by
  have hadv := advances_send h payload now
  have hold : ∀ p ∈ s.wire, SealedFrame P key na nb p.2 ∧
      (s.sendFrame P nb payload now).Used nb p.1 (frameCounter p.2) :=
    fun p hp => ⟨(h.frames p hp).1, (h.frames p hp).2.advance hadv⟩
  have hwindow : ∀ c, s.b.dataPlane.Blocked na.addr c →
      ∃ m, s.accepted = some m ∧ (s.sendFrame P nb payload now).Behind nb m c := by
    intro c hc
    obtain ⟨m, hm, hb⟩ := h.window c hc
    exact ⟨m, hm, hb.advance hadv⟩
  have hready := h.readyA.sendMenc now nb.ep payload
  rcases h.readyA.framesTo_sendMenc now payload with hno | ⟨frame, hone, hsealed, hc, hnext⟩
  · have hwire : (s.sendFrame P nb payload now).wire = s.wire := by simp [sendFrame, hno]
    exact ⟨hready, h.readyB, hwire.symm ▸ hold, hwire.symm ▸ h.ordered, hwindow⟩
  have hwire : (s.sendFrame P nb payload now).wire = s.wire ++ [(s.epoch, frame)] := by simp [sendFrame, hone]
  refine ⟨hready, h.readyB, ?_, ?_, hwindow⟩
  · rw [hwire]
    intro p hp
    rcases List.mem_append.mp hp with hp | hp
    · exact hold p hp
    obtain rfl := List.mem_singleton.mp hp
    exact ⟨hsealed, le_rfl, fun _ => by simp only [sendFrame, hnext]; exact Nat.lt_succ_self _⟩
  rw [hwire, List.pairwise_append]
  refine ⟨h.ordered, List.pairwise_singleton _ _, fun p hp q hq hpq => ?_⟩
  obtain rfl := List.mem_singleton.mp hq
  simp only [hc]
  exact (h.frames p hp).2.next hpq

/-! ### Routes -/

theorem routeA_lookup {ev : RouteEvent} : (s.a.step P (now, ev.event nb)).1.data.dataSendCtr.lookup nb.addr = none ∨
    (s.a.step P (now, ev.event nb)).1.data.dataSendCtr.lookup nb.addr = s.a.data.dataSendCtr.lookup nb.addr := by
  obtain ⟨vips, hmv⟩ := Engine.Ready.route_move s.a now ev nb
  have hstep := congrArg DataPlane.data (Engine.step_dataPlane P s.a (now, ev.event nb)).1
  rw [hmv] at hstep
  have hl := DataCrypto.forget_sendCtr vips s.a.data nb.addr
  rw [show (s.a.step P (now, ev.event nb)).1.data =
      vips.foldl DataCrypto.clearDataCryptoForVip s.a.data from hstep, hl]
  split
  · exact .inl rfl
  exact .inr rfl

theorem advances_routeA {ev : RouteEvent} : Advances nb s (s.routeAtA P nb ev now) where
  epoch := by
    simp only [routeAtA]
    split <;> omega
  next hsame := by
    simp only [routeAtA] at hsame ⊢
    unfold DataPlane.counter
    rcases routeA_lookup with hnone | hkeep
    · cases hbefore : s.a.data.dataSendCtr.lookup nb.addr with
      | none => simp [Engine.dataPlane, hbefore]
      | some n =>
        rw [hbefore, hnone] at hsame
        simp at hsame
    · simp only [Engine.dataPlane, hkeep, le_refl]
  wire p hp := .inl hp

theorem Inv.routeA (h : s.Inv P key na nb) {ev : RouteEvent} : (s.routeAtA P nb ev now).Inv P key na nb := by
  have hadv : Advances nb s (s.routeAtA P nb ev now) := advances_routeA
  refine ⟨h.readyA.route, h.readyB, fun p hp => ?_, h.ordered, fun c hc => ?_⟩
  · exact ⟨(h.frames p hp).1, (h.frames p hp).2.advance hadv⟩
  obtain ⟨m, hm, hb⟩ := h.window c hc
  exact ⟨m, hm, hb.advance hadv⟩

theorem routeB_blocked {ev : RouteEvent} {c : Nat} (hc : (s.routeAtB P na ev now).b.dataPlane.Blocked na.addr c) :
    (s.routeAtB P na ev now).accepted = s.accepted ∧ s.b.dataPlane.Blocked na.addr c := by
  obtain ⟨vips, hmv⟩ := Engine.Ready.route_move s.b now ev na
  have hstep := congrArg DataPlane.data (Engine.step_dataPlane P s.b (now, ev.event na)).1
  rw [hmv] at hstep
  have hl : (s.b.step P (now, ev.event na)).1.data.dataReplay.lookup na.addr =
      if na.addr ∈ vips then none else s.b.data.dataReplay.lookup na.addr :=
    (congrArg (fun d : DataCrypto => d.dataReplay.lookup na.addr) hstep).trans
      (DataCrypto.forget_replay vips s.b.data na.addr)
  unfold DataPlane.Blocked DataCrypto.replayAllows at *
  simp only [routeAtB, Engine.dataPlane, hl] at hc ⊢
  split at hc
  · rename_i w hw
    rw [hw]
    split at hw
    · cases hw
    rw [hw]; exact ⟨rfl, hc⟩
  · cases hc

theorem Inv.routeB (h : s.Inv P key na nb) {ev : RouteEvent} : (s.routeAtB P na ev now).Inv P key na nb := by
  have hadv : Advances nb s (s.routeAtB P na ev now) := advances_of_same rfl rfl fun _ hp => hp
  refine ⟨h.readyA, h.readyB.route, fun p hp => ?_, h.ordered, fun c hc => ?_⟩
  · exact ⟨(h.frames p hp).1, (h.frames p hp).2.advance hadv⟩
  obtain ⟨haccepted, hblocked⟩ := routeB_blocked hc
  obtain ⟨m, hm, hb⟩ := h.window c hblocked
  exact ⟨m, haccepted.trans hm, hb.advance hadv⟩

/-! ### Delivering -/

theorem receiveFrame_sealed (hrt : P.RoundTrip) (hs : SealedFrame P key na nb frame) (e : Engine)
    (fromEp : SocketAddr) (now : Instant) : ∃ body aead plain, receiveFrame P e fromEp now frame = e.step P
    (now, .encrypted body fromEp) ∧ ¬ body.length < wireCounterLen + dataTagLen ∧ decodeWireCounter
    (body.take wireCounterLen) = frameCounter frame ∧ deriveDataPlaneMaterial P key na.addr nb.addr = some aead ∧
    aead.decryptFramedPayloadInto P (body.take wireCounterLen) (dataAad na.addr nb.addr) (body.drop wireCounterLen) =
    some plain := by
  obtain ⟨aead, payload, hd, hframe⟩ := hs
  obtain ⟨wire, rest, hf, hlen, hdec, htag, hopen⟩ := decrypt_encryptFramedPacket hrt hframe
  refine ⟨wire ++ rest, aead, payload, ?_, ?_, ?_, hd, ?_⟩
  · rw [hf, receiveFrame, if_pos rfl]
  · rw [List.length_append]; omega
  · rw [List.take_left' hlen]; exact hdec
  · rw [List.take_left' hlen, List.drop_left' hlen]; exact hopen

theorem Inv.tail (h : s.Inv P key na nb)
    (hw : s.wire = (n, frame) :: wire) {b : Engine} (hb : b.Ready P key nb na) {accepted : Option Nat}
    (hwindow : ∀ c, b.dataPlane.Blocked na.addr c →
      accepted = some n ∧ c ≤ frameCounter frame ∨ ∃ m, accepted = some m ∧ s.Behind nb m c) :
    Inv P key na nb { s with b := b, wire := wire, accepted := accepted } := by
  have hmem : ∀ p ∈ wire, p ∈ s.wire := fun p hp => by rw [hw]; exact List.mem_cons_of_mem _ hp
  have hadv : Advances nb s { s with b := b, wire := wire, accepted := accepted } := advances_of_same rfl rfl hmem
  have hordered := h.ordered
  rw [hw, List.pairwise_cons] at hordered
  have hhead := (h.frames (n, frame) (by rw [hw]; exact List.mem_cons_self)).2.advance hadv
  refine ⟨h.readyA, hb, fun p hp => ?_, hordered.2, fun c hc => ?_⟩
  · exact ⟨(h.frames p (hmem p hp)).1, (h.frames p (hmem p hp)).2.advance hadv⟩
  rcases hwindow c hc with ⟨ha, hle⟩ | ⟨m, ha, hbehind⟩
  · exact ⟨n, ha, Behind.mono ⟨hhead, fun p hp hm => hordered.1 p hp hm.symm⟩ hle⟩
  exact ⟨m, ha, hbehind.advance hadv⟩

theorem Inv.head_allowed (h : s.Inv P key na nb) (hok : s.MeetsEpoch na (now, .deliver))
    (hw : s.wire = (n, frame) :: wire)
    (hr : (s.b.endpointToVipU32 na.ep).isSome) : ¬ s.b.dataPlane.Blocked na.addr (frameCounter frame) := by
  intro hblocked
  obtain ⟨m, hm, hb⟩ := h.window _ hblocked
  obtain rfl := hok n frame wire hw hr m hm
  exact Nat.lt_irrefl _ (hb.wire _ (by rw [hw]; exact List.mem_cons_self) rfl)

section
variable (hrt : P.RoundTrip) (h : s.Inv P key na nb)
include hrt h

theorem Inv.receive (hok : s.MeetsEpoch na (now, .deliver))
    (hw : s.wire = (n, frame) :: wire) (hr : (s.b.endpointToVipU32 na.ep).isSome) : ∃ plain,
    (receiveFrame P s.b na.ep now frame).2 = [.handleMdatLike plain na.ep] ∧ ∀ c,
    (receiveFrame P s.b na.ep now frame).1.dataPlane.Blocked na.addr c → c ≤ frameCounter frame ∨
    s.b.dataPlane.Blocked na.addr c := by
  obtain ⟨body, aead, plain, hreceive, hlen, hdec, hd, hopen⟩ :=
    receiveFrame_sealed hrt (h.frames (n, frame) (by rw [hw]; exact List.mem_cons_self)).1 s.b na.ep now
  have hallow := h.head_allowed hok hw hr
  rw [← hdec] at hallow
  obtain ⟨hout, hblocked⟩ := h.readyB.encrypted_accepts now hlen hr hd hopen hallow
  dsimp only at hreceive hdec
  rw [hreceive]
  refine ⟨plain, hout, fun c hc => ?_⟩
  rw [hdec] at hblocked
  rcases (hblocked c).mp hc with hc | hc | hc
  · exact .inl hc.le
  · exact .inl (by omega)
  exact .inr hc

theorem Inv.deliver (hok : s.MeetsEpoch na (now, .deliver)) : (s.deliverFrame P na now).1.Inv P key na nb := by
  unfold deliverFrame
  split
  · exact h
  rename_i n frame wire hw
  obtain ⟨body, aead, plain, hreceive, hlen, _⟩ :=
    receiveFrame_sealed hrt (h.frames (n, frame) (by rw [hw]; exact List.mem_cons_self)).1 s.b na.ep now
  have hready := h.readyB.encrypted now na.ep hlen
  rw [← hreceive] at hready
  refine h.tail hw hready fun c hc => ?_
  cases hr : s.b.endpointToVipU32 na.ep with
  | none =>
    dsimp only at hreceive
    rw [hreceive, Engine.Ready.encrypted_unrouted hr] at hc ⊢
    exact .inr (h.window c hc)
  | some u =>
    have hsome : (s.b.endpointToVipU32 na.ep).isSome := by rw [hr]; rfl
    obtain ⟨plain, hout, hblocked⟩ := h.receive hrt hok hw hsome
    rw [hout]
    rcases hblocked c hc with hle | hold
    · exact .inl ⟨rfl, hle⟩
    obtain ⟨m, hm, hb⟩ := h.window c hold
    obtain rfl := hok n frame wire hw hsome m hm
    exact .inr ⟨m, rfl, hb⟩

/-! ### Runs -/

theorem Inv.step (hok : s.MeetsEpoch na ev) : (s.step P na nb ev).1.Inv P key na nb := by
  obtain ⟨now, ev⟩ := ev
  cases ev with
  | send payload => exact h.send
  | deliver => exact h.deliver hrt hok
  | routeA ev => exact h.routeA
  | routeB ev => exact h.routeB

theorem Inv.acceptsHead (hok : s.MeetsEpoch na ev) : s.AcceptsHead P na nb ev := by
  obtain ⟨now, ev⟩ := ev
  cases ev with
  | deliver =>
    intro hne hr
    cases hw : s.wire with
    | nil => exact absurd hw hne
    | cons head wire =>
      obtain ⟨n, frame⟩ := head
      obtain ⟨plain, hout, _⟩ := h.receive hrt hok hw hr
      refine ⟨plain, ?_⟩
      simp only [Link.step, deliverFrame, hw, hout, List.mem_singleton]
  | _ => trivial

end

theorem ready_start {me peer : Node} {nodeId : String} :
    ((Engine.new (.new now) me.addr nodeId pre now).setCryptoKey key).Ready P key me peer where
  primary := rfl
  coherent _ _ _ hl := by cases hl
  addr := rfl
  only _ _ hl := by cases hl

theorem inv_start {nodeA nodeB : String} : (start na nb key nodeA nodeB pre now).Inv P key na nb where
  readyA := ready_start
  readyB := ready_start
  frames _ hp := by cases hp
  ordered := List.Pairwise.nil
  window _ hc := by cases hc

end

/-- Along a run in which no frame meets a replay window of another epoch, every frame that reaches `b`
while it has a route for the sender is accepted. -/
theorem run_frames_accepted (hrt : P.RoundTrip) (na nb : Node) (key : Key) (nodeA nodeB : String)
    (pre : Nat) (now : Instant) (evs : List (Instant × LinkEvent))
    (h : Machine.Each (Link.step P na nb) (start na nb key nodeA nodeB pre now) evs (MeetsEpoch na)) :
    Machine.Each (Link.step P na nb) (start na nb key nodeA nodeB pre now) evs (AcceptsHead P na nb) := by
  have hinv := Machine.invariant (P := Inv P key na nb) inv_start (fun _ _ hok hs => hs.step hrt hok) h
  exact fun i ev hev => (hinv i).acceptsHead hrt (h i ev hev)

def nodeOne : Node := ⟨"10.0.0.1", 0x0A000001, .v4 0xC0A80101 7777, by decide, by decide⟩

def nodeTwo : Node := ⟨"10.0.0.2", 0x0A000002, .v4 0xC0A80102 7777, by decide, by decide⟩

theorem run_frames_accepted_two_frames :
    Machine.Each (Link.step .transparent nodeOne nodeTwo) (start nodeOne nodeTwo (.filled 7) "a" "b" 24 0)
      [(1, .routeA (.learn (some "b") [])), (2, .routeB (.learn (some "a") [])), (3, .send [1]), (4, .send [2]),
        (5, .deliver), (6, .deliver)] (AcceptsHead .transparent nodeOne nodeTwo) := by
  refine run_frames_accepted transparent_roundTrip nodeOne nodeTwo (.filled 7) "a" "b" 24 0 _ ?_
  intro i ev hev
  have hlt : i < 6 := (List.getElem?_eq_some_iff.mp hev).1
  obtain rfl | rfl | rfl | rfl | rfl | rfl : i = 0 ∨ i = 1 ∨ i = 2 ∨ i = 3 ∨ i = 4 ∨ i = 5 := by omega
  · cases hev; trivial
  · cases hev; trivial
  · cases hev; trivial
  · cases hev; trivial
  · cases hev
    intro n frame wire _ _ m hm
    cases hm
  · cases hev
    intro n frame wire hw _ m hm
    cases hm
    have hepochs := congrArg (List.map Prod.fst) hw
    exact (List.cons.inj hepochs).1

/-- The sender forgets the receiver and learns it again between two frames. -/
def relearnRun : List (Instant × LinkEvent) :=
  [(1, .routeA (.learn (some "b") [])), (2, .routeB (.learn (some "a") [])), (3, .send [1]), (4, .deliver),
    (5, .routeA (.leave "b" 0)), (6, .routeA (.learn (some "b") [])), (7, .send [2]), (8, .deliver)]

theorem relearned_frame_rejected : Primitives.transparent.RoundTrip ∧
      ¬ Machine.Each (Link.step .transparent nodeOne nodeTwo) (start nodeOne nodeTwo (.filled 7) "a" "b" 24 0)
        relearnRun (AcceptsHead .transparent nodeOne nodeTwo) := by
  refine ⟨transparent_roundTrip, fun h => ?_⟩
  obtain ⟨plain, hmem⟩ := h 7 (8, .deliver) rfl (by decide) (by decide)
  have hnone : (Link.step .transparent nodeOne nodeTwo
      (Machine.stateAt (Link.step .transparent nodeOne nodeTwo) (start nodeOne nodeTwo (.filled 7) "a" "b" 24 0)
        relearnRun 7) (8, .deliver)).2 = [] := by decide
  rw [hnone] at hmem
  cases hmem

end Link

end ConnectUnit
