import ConnectUnit.EngineSound
import ConnectUnit.HostSound
import ConnectUnit.Rerolls

/-!
# The local address is not a route

No handler of a message makes a route for the local address, and a node that has to move takes an address without a
route.
-/

namespace ConnectUnit

variable {t t' : RoutingTable} {now : Instant} {v vip nodeId myVip : String} {ep dest fromEp : SocketAddr}
variable {pre pick : Nat} {order : List String} {e e' : Engine} {key : Key} {body : Bytes} {tag : Tag} {a : Arrival}
variable {authenticated : Bool} {ev : Event}

namespace RoutingTable

def NoNewRoute (t t' : RoutingTable) : Prop := ∀ v, t.lookup v = none → t'.lookup v = none

theorem NoNewRoute.refl (t : RoutingTable) : NoNewRoute t t := fun _ h => h

theorem NoNewRoute.trans {t'' : RoutingTable} (h : NoNewRoute t t') (h' : NoNewRoute t' t'') :
    NoNewRoute t t'' := fun v hv => h' v (h v hv)

theorem SameRoutes.noNewRoute (h : SameRoutes t t') : NoNewRoute t t' :=
  fun v hv => (h.lookup v).trans hv

theorem noNewRoute_remove (t : RoutingTable) (vip : String) (now : Instant) : NoNewRoute t (t.remove vip now) := by
  intro v hv
  by_cases hne : v = vip
  · subst hne
    unfold RoutingTable.lookup
    rw [remove_table, if_pos rfl]
    rfl
  rw [remove_lookup _ hne]
  exact hv

theorem noNewRoute_removeAll (vips : List String) (now : Instant) (t : RoutingTable) :
    NoNewRoute t (t.removeAll vips now) := by
  induction vips generalizing t with
  | nil => exact .refl t
  | cons vip vips ih => exact (noNewRoute_remove t vip now).trans (ih _)

theorem markStaleIfIdle_lookup {idle : Nat} : (t.markStaleIfIdle idle now).lookup v = t.lookup v := by
  unfold markStaleIfIdle RoutingTable.lookup
  dsimp only
  rw [HashMap.lookup_mapVals, Option.map_map]
  congr 1
  funext e
  dsimp only [Function.comp]
  split <;> rfl

theorem applyLastSeenBatch_lookup {batch : List (SocketAddr × Instant)} :
    (t.applyLastSeenBatch batch).lookup v = t.lookup v := by
  induction batch generalizing t with
  | nil => rfl
  | cons b batch ih =>
    show (applyLastSeenBatch _ batch).lookup v = _
    rw [ih]
    exact (t.onVip_same (t.epToVip.lookup b.1) (f := fun e => { e with lastSeen := b.2 }) fun _ =>
      ⟨rfl, rfl⟩).lookup v

theorem update_lookup_none (hne : v ≠ vip) {nodeId : Option String} (h : t.lookup v = none) :
    (t.update vip ep nodeId now).lookup v = none := by
  have hp : (t.pruneIfDue now).lookup v = none := by
    unfold pruneIfDue
    split
    · exact h
    exact h
  unfold RoutingTable.update
  dsimp only
  split
  · rw [place_lookup _ _ _ _ _ hne]; exact hp
  · exact hp
  · rw [place_lookup _ _ _ _ _ hne]; exact noNewRoute_remove _ _ _ v hp
  · rw [place_lookup _ _ _ _ _ hne]; exact hp

theorem drain_lookup_anchor : (t.drainVipsOutsideSubnet myVip pre order now).1.lookup myVip = t.lookup myVip := by
  unfold drainVipsOutsideSubnet
  cases hip : ipv4ToU32 myVip with
  | none => rfl
  | some anchor =>
    dsimp only
    refine List.foldlRecOn (motive := fun acc : RoutingTable × _ => acc.1.lookup myVip = t.lookup myVip) _ _ rfl
      fun acc h vip hvip => ?_
    have hne : vip ≠ myVip := by
      intro he
      have hout := (List.mem_filter.mp hvip).2
      rw [he] at hout
      simp [outsideSubnet, hip, sameSubnet] at hout
    unfold drainOne
    split
    · rw [← h]
      exact remove_lookup _ hne.symm
    exact h

end RoutingTable

/-! ## The engine -/

namespace Engine

def LocalFree (e : Engine) : Prop := e.myVip ≠ "" → e.routing.lookup e.myVip = none

/-- The local address stays, and no route is new. -/
structure Quiet (e e' : Engine) : Prop where
  myVip : e'.myVip = e.myVip
  routes : e.routing.NoNewRoute e'.routing

theorem Quiet.refl (e : Engine) : Quiet e e := ⟨rfl, .refl _⟩

theorem Quiet.trans {e'' : Engine} (h : Quiet e e') (h' : Quiet e' e'') : Quiet e e'' :=
  ⟨h'.myVip.trans h.myVip, h.routes.trans h'.routes⟩

theorem Quiet.localFree (h : Quiet e e') (hf : LocalFree e) : LocalFree e' := by
  intro hne
  rw [h.myVip] at hne ⊢
  exact h.routes _ (hf hne)

section
variable (P : Primitives) (e : Engine)

theorem quiet_addCryptoKey : Quiet e (e.addCryptoKey key) := by
  unfold addCryptoKey
  split <;> exact ⟨rfl, .refl _⟩

theorem quiet_onPeerRouteRemoved : Quiet e (e.onPeerRouteRemoved vip) := by
  unfold onPeerRouteRemoved
  split <;> exact ⟨rfl, .refl _⟩

theorem quiet_routesRemoved {vips : List String} : Quiet e (e.routesRemoved vips) := by
  rw [routesRemoved_eq]
  exact ⟨rfl, .refl _⟩

theorem quiet_buildSignedOrPlain (cached : Bool) (key : Option AeadKey) (dest : SocketAddr) (tag : Tag) (body : Bytes)
    : Quiet e (e.buildSignedOrPlain P cached key dest tag body).1 := by
  unfold buildSignedOrPlain
  repeat' split
  all_goals exact ⟨rfl, .refl _⟩

theorem quiet_sendCtrlSignedTo (dest : SocketAddr) (tag : Tag) (body : Bytes) :
    Quiet e (e.sendCtrlSignedTo P dest tag body).1 :=
  quiet_buildSignedOrPlain ..

theorem quiet_prepareJoin {target : Option SocketAddr} : Quiet e (e.prepareJoin P key target body now).1 := by
  unfold prepareJoin
  split
  · exact .refl e
  have hkey : Quiet e (e.joinKey key now) := ⟨rfl, .refl _⟩
  dsimp only
  split
  · exact hkey
  exact (hkey.trans (quiet_sendCtrlSignedTo ..)).trans (quiet_sendCtrlSignedTo ..)

theorem quiet_sendMenc {payload : Bytes} : Quiet e (e.sendMenc P dest payload).1 := by
  unfold sendMenc encryptFramedPacketReuse
  repeat' split
  all_goals exact ⟨rfl, .refl _⟩

theorem quiet_handleEncrypted : Quiet e (e.handleEncrypted P body fromEp).1 := by
  unfold handleEncrypted
  repeat' split
  all_goals exact ⟨rfl, .refl _⟩

theorem quiet_touchRoutingEndpoint : Quiet e (e.touchRoutingEndpoint fromEp now) := by
  refine ⟨rfl, ?_⟩
  unfold touchRoutingEndpoint
  dsimp only
  split
  · exact (RoutingTable.promoteStaleIfNeeded_same _).noNewRoute
  exact .refl _

theorem quiet_handleSignedWrapper {tie : Nat} : Quiet e (e.handleSignedWrapper P body fromEp now tie).1 := by
  unfold handleSignedWrapper
  dsimp only
  split
  · exact ⟨rfl, .refl _⟩
  exact ⟨rfl, (quiet_touchRoutingEndpoint _).routes⟩

theorem quiet_sendControlPacket : Quiet e (e.sendControlPacket P dest tag body pick).1 := by
  unfold sendControlPacket
  repeat' split
  all_goals exact ⟨rfl, .refl _⟩

theorem quiet_admitControl (tag : Tag) (fromEp : SocketAddr) (authenticated : Bool) (now : Instant) :
    Quiet e (e.admitControl tag fromEp authenticated now).1 := ⟨rfl, .refl _⟩

theorem quiet_leave : Quiet e (e.leave P nodeId vip pick now) := by
  unfold leave
  split
  · exact .refl e
  have hremoved : Quiet e { e with routing := e.routing.remove vip now } :=
    ⟨rfl, RoutingTable.noNewRoute_remove _ vip now⟩
  exact (hremoved.trans (quiet_onPeerRouteRemoved _)).trans ⟨rfl, .refl _⟩

theorem quiet_vipFight {loser : String} : Quiet e (e.vipFight loser vip now) := by
  unfold vipFight
  split
  · exact .refl e
  have hremoved : Quiet e { e with routing := e.routing.remove vip now } :=
    ⟨rfl, RoutingTable.noNewRoute_remove _ vip now⟩
  exact hremoved.trans (quiet_onPeerRouteRemoved _)

theorem quiet_staleEvict {staleMark staleAge : Nat} : Quiet e (e.staleEvict staleMark staleAge order now) := by
  have hmark : e.routing.NoNewRoute (e.routing.markStaleIfIdle staleMark now) := fun v hv =>
    (RoutingTable.markStaleIfIdle_lookup).trans hv
  unfold staleEvict
  dsimp only
  generalize staleVictims (e.routing.markStaleIfIdle staleMark now) staleAge order now = victims
  have hremoved : Quiet e { e with routing := (e.routing.markStaleIfIdle staleMark now).removeAll victims now } :=
    ⟨rfl, hmark.trans (RoutingTable.noNewRoute_removeAll _ now _)⟩
  exact (hremoved.trans (quiet_routesRemoved _)).trans ⟨rfl, .refl _⟩

theorem quiet_flushLastSeenPending : Quiet e e.flushLastSeenPending :=
  ⟨rfl, fun _ hv => (RoutingTable.applyLastSeenBatch_lookup).trans hv⟩

variable {e}

theorem LocalFree.updateRoute (h : LocalFree e) {nodeId : Option String}
    : LocalFree (e.updateRoute vip ep nodeId order now) := by
  unfold Engine.updateRoute
  split
  · exact h
  rename_i hok
  rw [not_or] at hok
  intro hne
  dsimp only at hne ⊢
  rw [(RoutingTable.stampRelayPath_same _ _ _ _ _).1.lookup]
  exact RoutingTable.update_lookup_none (Ne.symm hok.2) (h hne)

theorem setIdentity_localFree_iff {e : Engine} {epoch : Nat} :
    LocalFree (e.setIdentity myVip nodeId pre epoch order now) ↔ (myVip ≠ "" → e.routing.lookup myVip = none) := by
  unfold setIdentity
  by_cases hvip : myVip = ""
  · rw [if_pos hvip]
    exact iff_of_true (fun hne => absurd hvip hne) fun hne => absurd hvip hne
  rw [if_neg hvip, routesRemoved_eq]
  unfold LocalFree
  dsimp only
  rw [RoutingTable.drain_lookup_anchor]

theorem applyLocalVipChange_localFree_iff (h : LocalFree e) {newVip : String} :
    LocalFree (e.applyLocalVipChange P newVip pick now) ↔
      (newVip ≠ "" → newVip ≠ e.myVip → e.acceptWireClaimVip P newVip pick = true →
        e.routing.lookup newVip = none) := by
  unfold applyLocalVipChange
  by_cases hsame : newVip = "" ∨ newVip = e.myVip
  · rw [if_pos hsame]
    exact iff_of_true h fun h1 h2 => absurd hsame (not_or.mpr ⟨h1, h2⟩)
  rw [if_neg hsame]
  rw [not_or] at hsame
  cases hacc : e.acceptWireClaimVip P newVip pick with
  | false => exact iff_of_true h nofun
  | true =>
    unfold LocalFree
    simp only [Bool.not_true, Bool.false_eq_true, if_false]
    rw [RoutingTable.remove_lookup _ hsame.2]
    exact ⟨fun h _ _ _ => h hsame.1, fun h _ => h hsame.1 hsame.2 trivial⟩

def Admits (e : Engine) : Event → Prop
  | .setIdentity myVip _ _ _ _ => myVip ≠ "" → e.routing.lookup myVip = none
  | .applyLocalVipChange newVip pick =>
    newVip ≠ "" → newVip ≠ e.myVip → e.acceptWireClaimVip P newVip pick = true → e.routing.lookup newVip = none
  | _ => True

theorem step_localFree_iff (h : LocalFree e) (now : Instant) (ev : Event) :
    LocalFree (e.step P (now, ev)).1 ↔ e.Admits P ev := by
  have hq : ∀ {e' : Engine}, Quiet e e' → (LocalFree e' ↔ True) := fun hq => iff_of_true (hq.localFree h) trivial
  cases ev with
  | setIdentity myVip nodeId pre epoch order => exact setIdentity_localFree_iff
  | applyLocalVipChange newVip pick => exact applyLocalVipChange_localFree_iff P h
  | setCryptoKey key => exact hq ⟨rfl, .refl _⟩
  | addCryptoKey key => exact hq (quiet_addCryptoKey e)
  | bindPeerKey peer key => exact hq ⟨rfl, .refl _⟩
  | prepareJoin key target body => exact hq (quiet_prepareJoin P e)
  | resetSession => exact iff_of_true (fun hne => absurd rfl hne) trivial
  | peerRouteRemoved vip => exact hq (quiet_onPeerRouteRemoved e)
  | leave nodeId vip pick => exact hq (quiet_leave P e)
  | vipFight loser vip => exact hq (quiet_vipFight e)
  | staleEvict staleMark staleAge order => exact hq (quiet_staleEvict e)
  | updateRoute vip ep nodeId order => exact iff_of_true h.updateRoute trivial
  | touchRoutingEndpoint fromEp => exact hq (quiet_touchRoutingEndpoint e)
  | flushLastSeenPending => exact hq (quiet_flushLastSeenPending e)
  | encryptTo destVip payload => exact hq ⟨rfl, .refl _⟩
  | sendMenc dest payload => exact hq (quiet_sendMenc P e)
  | encrypted body fromEp => exact hq (quiet_handleEncrypted P e)
  | signedWrapper body fromEp tie => exact hq (quiet_handleSignedWrapper P e)
  | sendControlPacket dest tag body pick => exact hq (quiet_sendControlPacket P e)
  | sendCtrlSignedTo dest tag body => exact hq (quiet_sendCtrlSignedTo P e dest tag body)
  | enqueueCtrl dest tag body => exact hq (quiet_buildSignedOrPlain P e ..)
  | readStateView => exact hq ⟨rfl, .refl _⟩
  | punch task dest tag =>
    refine hq (?_ : Quiet e (e.punch P task dest tag).1)
    unfold punch
    split
    · exact quiet_buildSignedOrPlain ..
    exact .refl e

end

end Engine

/-! ## Datagrams -/

namespace Inbound

open Engine

section
variable {γ : Type} (P : Primitives) {s : Inbound γ}

theorem Keeps.localFree {s' : Inbound γ} (hkeep : Keeps s s') (h : LocalFree s.core) : LocalFree s'.core :=
  Quiet.localFree ⟨hkeep.myVip, hkeep.routes.noNewRoute⟩ h

section
variable (h : LocalFree s.core)
include h

theorem updateRoute_localFree {nodeId : Option String} : LocalFree (s.updateRoute vip nodeId a).core := by
  have hcore : LocalFree (s.core.updateRoute vip a.fromEp nodeId (a.order s.core.routing) a.now) := h.updateRoute
  unfold Inbound.updateRoute
  split
  · exact h
  dsimp only
  split
  · split <;> exact hcore
  exact hcore

theorem Acts.localFree {s' : Inbound γ} (hacts : Acts authenticated a s s') : LocalFree s'.core := by
  induction hacts with
  | refl => exact h
  | @tail s _ _ hact ih =>
    cases hact with
    | limit tag => exact (quiet_admitControl s.core tag a.fromEp authenticated a.now).localFree ih
    | touch => exact (s.touch_keeps a).localFree ih
    | learn => exact updateRoute_localFree ih

theorem handleParsedPacket_localFree : LocalFree (s.handleParsedPacket P tag body a).1.core := by
  unfold handleParsedPacket
  split
  · exact h
  split
  · unfold applyPmarBody
    split <;> exact h
  split
  · have hs : LocalFree ({ s with core := (s.core.handleSignedWrapper P body a.fromEp a.now a.tie).1 } : Inbound γ).core :=
      (quiet_handleSignedWrapper P s.core).localFree h
    unfold handleSignedWrapper
    dsimp only
    split
    · exact acts_dispatchControl.localFree hs
    exact hs
  · exact acts_dispatchControl.localFree h

theorem handleReliablePacket_localFree : LocalFree (s.handleReliablePacket P body a).1.core := by
  have hprune : LocalFree (s.pruneReliableSeenCache a.now).core := h
  unfold handleReliablePacket
  dsimp only
  split
  · exact h
  split
  · exact h
  split
  · exact hprune
  have htouch := (touch_keeps ((s.pruneReliableSeenCache a.now).noteReliableSeen
    ((s.pruneReliableSeenCache a.now).reliableDedupKey a.fromEp)
      (UInt32.ofNat (fromBeBytes (body.take 4))) a.now) a).localFree hprune
  split
  · exact htouch
  exact acts_dispatchControl.localFree htouch

theorem handleData_localFree : LocalFree (s.handleData body a).1.core := by
  unfold handleData
  split
  · exact h
  dsimp only
  split
  · exact h
  exact (handleMdatLike_keeps
    { s with plainDataLimiter := (s.plainDataLimiter.allow (srcAddrKey a.fromEp) a.now).1 }).localFree h

end

theorem handleCompactPacket_localFree (h : LocalFree s.core) {ty : CompactPacketType} :
    LocalFree (s.handleCompactPacket P ty body a).1.core := by
  cases ty with
  | reliable => exact handleReliablePacket_localFree P h
  | encrypted => exact s.handleEncrypted_keeps.1.localFree h
  | data => exact handleData_localFree h
  | ping => exact (s.touch_keeps a).localFree h
  | pong => exact s.handlePongBody_keeps.localFree h
  | ack => exact h
  | fec => exact h
  | joinAck => exact h

end

end Inbound

/-! ## Membership -/

namespace Member

open Engine

section
variable (P : Primitives) (W : WireText) (env : Env) {m : Member}

theorem Acts.localFree {P : Primitives} {env : Env} {m m' : Member} (hacts : Acts P env m m') (h : LocalFree m.core) :
    LocalFree m'.core := by
  have hcore := hacts.core
  generalize m'.core = e at hcore ⊢
  induction hcore with
  | refl => exact h
  | tail _ hact ih =>
    cases hact with
    | readdress hfree =>
      refine (applyLocalVipChange_localFree_iff P ih).mpr fun _ _ _ => ?_
      unfold RoutingTable.lookup
      rw [hfree]
      rfl
    | fight => exact (quiet_vipFight _).localFree ih
    | route => exact ih.updateRoute
    | subnet => exact ih

section
variable (h : LocalFree m.core)
include h

theorem handleClaimGossipBody_localFree {body : Body GossipJson} :
    LocalFree (m.handleClaimGossipBody P W body fromEp env).1.core := by
  unfold handleClaimGossipBody
  split
  · exact h
  split
  · exact h
  dsimp only
  rw [foldl_installLeave_eq]
  split
  · exact h
  exact acts_gossipClaims.localFree h

theorem handleLeave_localFree {body : Body LeaveJson} : LocalFree (m.handleLeave P body env).core := by
  unfold handleLeave
  split
  · exact h
  split
  · exact h
  rename_i j _
  have hseen : LocalFree (m.markMsmdSeen j.eventId env.now).1.core := by
    rw [markMsmdSeen_core]
    exact h
  dsimp only
  split
  · exact h
  split
  · exact h
  split
  · exact hseen
  rw [installLeave_eq]
  exact (quiet_leave P _).localFree hseen

theorem dispatch_localFree {handle : Member → Member × List MemberOutput}
    (hhandle : ∀ {m : Member}, LocalFree m.core → LocalFree (handle m).1.core) :
    LocalFree (m.dispatch tag fromEp authenticated env handle).1.core := by
  have hadmit := (quiet_admitControl m.core tag fromEp authenticated env.now).localFree h
  unfold dispatch
  dsimp only
  split
  · exact hhandle hadmit
  exact hadmit

theorem step_localFree : LocalFree (m.step P W (env, ev)).1.core := by
  cases ev with
  | join body fromEp auth =>
    exact dispatch_localFree env h acts_handleJoin.localFree
  | joinAck body fromEp auth =>
    exact dispatch_localFree env h acts_handleJoinAck.localFree
  | claimGossip body fromEp auth =>
    refine dispatch_localFree env h fun hm => ?_
    split
    · exact handleClaimGossipBody_localFree P W env hm
    exact hm
  | leave body fromEp auth =>
    refine dispatch_localFree env h fun hm => ?_
    split
    · exact handleLeave_localFree P env hm
    exact hm
  | broadcastLeave msg =>
    show LocalFree (m.broadcastLeave P msg env).1.core
    unfold broadcastLeave
    split <;> exact h
  | triggerClaimGossip => exact (acts_broadcast (P := P)).localFree h
  | syncTick => exact (acts_flush.trans (acts_broadcast (P := P))).localFree h
  | presenceTick => exact acts_presenceTick.localFree h
  | staleEvict staleMark staleAge => exact (quiet_staleEvict m.core).localFree h

end

end

end Member

/-! ## Whole nodes -/

namespace Host

open Engine

section
variable {γ : Type} (P : Primitives) (W : WireText) (J : JsonText) (rs : Codec γ UInt8) {n : Host γ}

def LocalFree (n : Host γ) : Prop := n.member.core.LocalFree

theorem LocalFree.inbound (h : n.LocalFree) : n.inbound.core.LocalFree := n.same ▸ h

theorem handleMessage_localFree (h : n.LocalFree) {order : IterOrder}
    : (n.handleMessage P W J authenticated a order tag body).1.LocalFree := by
  unfold handleMessage
  dsimp only
  split
  · exact Member.acts_handleJoin.localFree h
  split
  · exact Member.acts_handleJoinAck.localFree h
  split
  · exact Member.handleClaimGossipBody_localFree P W _ h
  split
  · exact Member.handleLeave_localFree P _ h
  exact h

theorem absorb_localFree {r : Inbound γ × List ConnectUnit.Output} (h : r.1.core.LocalFree)
    {order : IterOrder} : (n.absorb P W J authenticated a order r).1.LocalFree := by
  have hstart : (n.withInbound r.1).LocalFree := h
  refine Machine.run_invariant (P := LocalFree) hstart ?_
  intro n o hn
  unfold handOn
  split
  · exact handleMessage_localFree P W J hn
  exact hn

theorem handleCompactPacket_localFree (h : n.LocalFree) {order : IterOrder}
    {pkt : CompactPacketType × Bytes} : (handleCompactPacket P W J a order n pkt).1.LocalFree := by
  unfold handleCompactPacket
  split
  · unfold handleReliablePacket
    split
    · exact h
    exact absorb_localFree P W J (Inbound.handleReliablePacket_localFree P h.inbound)
  · exact absorb_localFree P W J (Inbound.handleCompactPacket_localFree P h.inbound)

theorem handlePacket_localFree (h : n.LocalFree) {buf : Bytes} {order : IterOrder} :
    (n.handlePacket P W J rs buf a order).1.LocalFree := by
  unfold handlePacket
  split
  · exact absorb_localFree P W J (Inbound.handleParsedPacket_localFree P h.inbound)
  have hpackets : (n.packets rs buf a).1.LocalFree := by
    unfold packets
    split
    · exact h.inbound
    · exact h
    exact h
  exact Machine.run_invariant (P := LocalFree) hpackets (fun n pkt hn => handleCompactPacket_localFree P W J hn)

def Admits (n : Host γ) : Event → Prop
  | .command ev => n.member.core.Admits P ev
  | _ => True

theorem step_localFree_iff (h : n.LocalFree) : (n.step P W J rs now ev).1.LocalFree ↔ n.Admits P ev := by
  cases ev with
  | datagram buf a order => exact iff_of_true (handlePacket_localFree P W J rs h) trivial
  | membership env ev => exact iff_of_true (Member.step_localFree P W _ h) trivial
  | command ev =>
    have hstep := Engine.step_localFree_iff P h now ev
    cases ev with
    | resetSession => exact iff_of_true (fun hne => absurd rfl hne) trivial
    | _ => exact hstep

/-- In a run from a node whose local address has no route, the local address never has a route iff no
command of the run gives the node an address that has one. -/
theorem local_vip_unrouted_iff (start : Instant) (n : Host γ) (acts : List (Nat × Event))
    (h : n.member.core.myVip ≠ "" → n.member.core.routing.table.lookup n.member.core.myVip = none) :
    (∀ i, let e := (Machine.stateAt (timedStep P W J rs) (start, n) acts i).2.member.core
      e.myVip ≠ "" → e.routing.table.lookup e.myVip = none) ↔
    Machine.Each (timedStep P W J rs) (start, n) acts fun s act => s.2.Admits P act.2 := by
  have hfree : ∀ n : Host γ, n.LocalFree ↔
      (n.member.core.myVip ≠ "" → n.member.core.routing.table.lookup n.member.core.myVip = none) := by
    intro n
    unfold LocalFree Engine.LocalFree RoutingTable.lookup
    rw [Option.map_eq_none_iff]
  simp only [← hfree] at h ⊢
  exact Machine.always_iff_each (C := fun s : Instant × Host γ => s.2.LocalFree) (I := fun _ => True) h
    (fun _ => trivial) fun s act _ hs => step_localFree_iff P W J rs hs

end

def ackThen (ev : Engine.Event) : List (Nat × Event) := [copyAfter 0, (0, .command ev)]

theorem unrouted_identity : (openHost (.new 0)).member.core.myVip = "10.0.0.1" ∧
    let e := (Machine.stateAt (timedStep .transparent plainText oneJoinAck Inbound.noCodec) (0, openHost (.new 0))
      (ackThen (.setIdentity "10.0.0.3" "a" 24 1 [])) 2).2.member.core
    e.myVip ≠ "" → e.routing.table.lookup e.myVip = none := by
  refine ⟨by decide +kernel, (local_vip_unrouted_iff _ _ _ _ 0 _ _ fun _ => rfl).mpr ?_ 2⟩
  intro i act hact
  cases i with
  | zero =>
    cases hact
    exact trivial
  | succ i =>
    cases i with
    | zero =>
      cases hact
      have hnone :
          (Machine.stateAt (timedStep .transparent plainText oneJoinAck Inbound.noCodec) (0, openHost (.new 0))
          (ackThen (.setIdentity "10.0.0.3" "a" 24 1 [])) 1).2.member.core.routing.lookup "10.0.0.3" = none := by
        decide +kernel
      exact fun _ => hnone
    | succ i => cases hact

/-- The node takes the address of a route that it has learned. -/
theorem identity_of_a_route : (openHost (.new 0)).member.core.routing.lookup "10.0.0.1" = none ∧
    let e := (Machine.stateAt (timedStep .transparent plainText oneJoinAck Inbound.noCodec) (0, openHost (.new 0))
      (ackThen (.setIdentity "10.0.0.2" "a" 24 1 ["10.0.0.2"])) 2).2.member.core
    e.myVip = "10.0.0.2" ∧ e.routing.lookup "10.0.0.2" = some Inbound.peerEp := by
  decide +kernel

end Host

end ConnectUnit
