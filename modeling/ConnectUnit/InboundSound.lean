import ConnectUnit.Inbound
import ConnectUnit.RoutingComplete

/-!
# What a stranger can do to a route

A datagram that no key opens can still teach the engine a route.
-/

open Machine (Each run stateAt trace)

namespace ConnectUnit

variable {t'' : RoutingTable} {f : RouteEntry → RouteEntry} {w : String} {ep : SocketAddr} {a : Arrival}
variable {e : Engine} {body : Bytes}
variable {vip v : String} {fromEp : SocketAddr} {now : Instant}

/-! ## Compound messages -/

namespace RoutingTable

def stateOf (t : RoutingTable) (v : String) : Option RouteState := (t.table.lookup v).map (·.state)

structure SameRoutes (t t' : RoutingTable) : Prop where
  lookup : ∀ v, t'.lookup v = t.lookup v
  nodeOf : ∀ v, t'.nodeOf v = t.nodeOf v
  ep : t'.epToVip = t.epToVip

theorem SameRoutes.refl (t : RoutingTable) : SameRoutes t t := ⟨fun _ => rfl, fun _ => rfl, rfl⟩

theorem SameRoutes.trans {t t' : RoutingTable} (h : SameRoutes t t') (h' : SameRoutes t' t'') : SameRoutes t t'' :=
  ⟨fun v => (h'.lookup v).trans (h.lookup v), fun v => (h'.nodeOf v).trans (h.nodeOf v), h'.ep.trans h.ep⟩

section
variable (t : RoutingTable)

theorem onEntry_same
    (hf : ∀ e, (f e).endpoint = e.endpoint ∧ (f e).nodeId = e.nodeId) : SameRoutes t (t.onEntry vip f) :=
  ⟨onEntry_lookup vip fun e => (hf e).1, onEntry_nodeOf vip fun e => (hf e).2, rfl⟩

theorem onVip_same (vip : Option String)
    (hf : ∀ e, (f e).endpoint = e.endpoint ∧ (f e).nodeId = e.nodeId) : SameRoutes t (t.onVip vip f) := by
  cases vip with
  | none => exact .refl t
  | some vip => exact t.onEntry_same hf

theorem noteRtt_same (fromEp : SocketAddr) (rttMs : Int) (now : Instant) :
    SameRoutes t (t.noteRtt fromEp rttMs none now) :=
  t.onVip_same _ fun e => by
    have h := noteRtt_keys e fromEp rttMs t.failover t.congestion t.routingEwma now
    exact ⟨h.endpoint, h.nodeId⟩

theorem noteFwdOwd_same {owd rttMs : ℚ} : SameRoutes t (t.noteFwdOwd fromEp owd rttMs none now) :=
  t.onVip_same _ fun e => by
    have h := updateOwdBaseOnSample_keys e owd rttMs now t.congestion
    split
    · exact ⟨h.endpoint, h.nodeId⟩
    exact ⟨rfl, rfl⟩

theorem promoteStaleIfNeeded_same : SameRoutes t (t.promoteStaleIfNeeded ep now) :=
  t.onVip_same _ fun e => by split <;> exact ⟨rfl, rfl⟩

theorem rebuild_same : SameRoutes t (t.rebuildPathEpIndexForVip vip) := by
  rw [rebuild_eq]
  exact ⟨fun _ => rfl, fun _ => rfl, rfl⟩

theorem onEntry_stateOf (hf : ∀ e, (f e).state = e.state) : (t.onEntry vip f).stateOf v = t.stateOf v := by
  unfold stateOf onEntry
  rw [HashMap.lookup_modify]
  split
  · rename_i hv; subst hv; simp [Function.comp_def, hf]
  rfl

theorem rebuild_stateOf : (t.rebuildPathEpIndexForVip vip).stateOf v = t.stateOf v := by
  rw [rebuild_eq]; rfl

theorem repath_same
    (hf : ∀ e, (f e).endpoint = e.endpoint ∧ (f e).nodeId = e.nodeId ∧ (f e).state = e.state) : SameRoutes t
    ((t.onEntry vip f).rebuildPathEpIndexForVip vip) ∧ ∀ v, ((t.onEntry vip f).rebuildPathEpIndexForVip vip).stateOf v
    = t.stateOf v :=
  ⟨(t.onEntry_same fun e => ⟨(hf e).1, (hf e).2.1⟩).trans (rebuild_same _),
    fun _ => (rebuild_stateOf _).trans (t.onEntry_stateOf (fun e => (hf e).2.2))⟩

theorem stampRelayPath_same (destVip myVip : String) (order : List String) (now : Instant) : SameRoutes t
    (Engine.stampRelayPath t destVip myVip order now) ∧ ∀ v, (Engine.stampRelayPath t destVip myVip order now).stateOf
    v = t.stateOf v := by
  unfold Engine.stampRelayPath
  split
  · unfold stampRelayHop
    split
    · exact ⟨.refl t, fun _ => rfl⟩
    exact t.repath_same fun _ => ⟨rfl, rfl, rfl⟩
  · exact t.repath_same fun _ => ⟨rfl, rfl, rfl⟩

/-! ## The standing of a route -/

/-- The route exists with a node id, its endpoint is taken for it, and no endpoint that is taken for it
belongs to another route. -/
structure Settled (v : String) : Prop where
  identified : ∃ n, t.nodeOf v = some n ∧ n ≠ ""
  indexed : ∀ ep, t.lookup v = some ep → t.epToVip.lookup ep = some v
  alone : ∀ w ep, w ≠ v → t.lookup w = some ep → t.epToVip.lookup ep ≠ some v

def Healthy (v : String) : Prop := t.stateOf v ≠ some .stale ∧ t.stateOf v ≠ some .degraded

/-- The route is at the same endpoint, and the same endpoints are taken for it. -/
structure SamePlace (v : String) (t t' : RoutingTable) : Prop where
  endpoint : t'.lookup v = t.lookup v
  aliases : ∀ e, t'.epToVip.lookup e = some v ↔ t.epToVip.lookup e = some v

variable {t} {t' : RoutingTable} {v : String}

theorem SamePlace.refl (t : RoutingTable) (v : String) : SamePlace v t t := ⟨rfl, fun _ => .rfl⟩

theorem SamePlace.trans (h : SamePlace v t t') (h' : SamePlace v t' t'') : SamePlace v t t'' :=
  ⟨h'.endpoint.trans h.endpoint, fun e => (h'.aliases e).trans (h.aliases e)⟩

theorem SameRoutes.samePlace (h : SameRoutes t t') : SamePlace v t t' := ⟨h.lookup v, fun e => by rw [h.ep]⟩

theorem Settled.of_same (h : t.Settled v) (hs : SameRoutes t t') : t'.Settled v where
  identified := by rw [hs.nodeOf]; exact h.identified
  indexed := by rw [hs.lookup, hs.ep]; exact h.indexed
  alone := by
    intro w ep hw hl
    rw [hs.lookup] at hl
    rw [hs.ep]
    exact h.alone w ep hw hl

theorem Settled.aliasOf (h : t.Settled v) (hh : t.Healthy v) (hw : w ≠ v)
    (hep : t.epToVip.lookup ep = some v) : t.aliasOf w ep none = .reject := by
  obtain ⟨n, hn, hne⟩ := h.identified
  obtain ⟨r, hr, rfl⟩ := Option.map_eq_some_iff.mp hn
  unfold Healthy stateOf at hh
  rw [hr] at hh
  have hrej : t.Rejects w ep none :=
    ⟨v, r, hep, hw.symm, hr, hne, .inr ⟨rfl, fun hs => hh.1 (congrArg some hs), fun hs => hh.2 (congrArg some hs)⟩⟩
  rcases t.aliasOf_cases w ep none with ⟨ha, _⟩ | ⟨hno, _⟩
  · exact ha
  exact absurd hrej hno

theorem place_stateOf (hold : (t.lookup v).isSome) : (t.place w ep none now).stateOf v = t.stateOf v := by
  unfold stateOf
  by_cases hv : v = w
  · subst hv
    obtain ⟨r, hr⟩ := Option.isSome_iff_exists.mp ((Option.isSome_map ..).symm.trans hold)
    unfold place
    rw [rebuild_eq]
    simp only [HashMap.lookup_insert_eq, if_true, Option.map_some, hr]
    split <;> rfl
  · rw [place_table, if_neg hv]

theorem Settled.place_self (h : t.Settled v) (hl : t.lookup v = some ep) :
    (t.place v ep none now).Settled v ∧ SamePlace v t (t.place v ep none now) := by
  have hep := h.indexed ep hl
  obtain ⟨n, hn, hne⟩ := h.identified
  have hkeep : ∀ e, (t.place v ep none now).epToVip.lookup e = t.epToVip.lookup e := by
    intro e
    rw [place_ep, hl]
    by_cases he : e = ep
    · rw [if_pos he, he, hep]
    rw [if_neg he, if_neg fun hs => he (Option.some.inj hs).symm]
  refine ⟨⟨⟨n, ?_, hne⟩, ?_, ?_⟩, ⟨(place_lookup_self t v ep none now).trans hl.symm, fun e => by rw [hkeep]⟩⟩
  · rw [place_nodeOf_self, placedNode, hn]; rfl
  · intro ep' hl'
    rw [place_lookup_self] at hl'
    cases hl'
    rw [hkeep, hep]
  intro u ep' hu hl'
  rw [place_lookup t v ep none now hu] at hl'
  rw [hkeep]
  exact h.alone u ep' hu hl'

theorem Settled.place_other (h : t.Settled v) (hw : w ≠ v) (hother : t.epToVip.lookup ep ≠ some v) :
    (t.place w ep none now).Settled v ∧ SamePlace v t (t.place w ep none now) := by
  have hlook := place_lookup t w ep none now hw.symm
  have halias : ∀ e, (t.place w ep none now).epToVip.lookup e = some v ↔ t.epToVip.lookup e = some v := by
    intro e
    rw [place_ep]
    by_cases he : e = ep
    · subst he
      rw [if_pos rfl]
      exact iff_of_false (fun hs => hw (Option.some.inj hs)) hother
    rw [if_neg he]
    split
    · rename_i hl
      exact iff_of_false (fun hs => by cases hs) (h.alone w e hw hl)
    rfl
  refine ⟨⟨?_, ?_, ?_⟩, ⟨hlook, halias⟩⟩
  · rw [place_nodeOf t w ep none now hw.symm]; exact h.identified
  · intro ep' hl'
    rw [hlook] at hl'
    exact (halias ep').mpr (h.indexed ep' hl')
  intro u ep' hu hl' hs
  have hs' := (halias ep').mp hs
  by_cases huw : u = w
  · subst huw
    rw [place_lookup_self] at hl'
    cases hl'
    exact hother hs'
  rw [place_lookup t w ep none now huw] at hl'
  exact h.alone u ep' hu hl' hs'

theorem Settled.place (h : t.Settled v) (hown : w = v → t.lookup v = some ep)
    (hother : w ≠ v → t.epToVip.lookup ep ≠ some v) (now : Instant) :
    (t.place w ep none now).Settled v ∧ SamePlace v t (t.place w ep none now) := by
  by_cases hw : w = v
  · subst hw
    exact h.place_self (hown rfl)
  exact h.place_other hw (hother hw)

theorem Settled.dropEp (h : t.Settled v) (hep : t.epToVip.lookup ep ≠ some v) :
    Settled { t with epToVip := t.epToVip.erase ep } v ∧ SamePlace v t { t with epToVip := t.epToVip.erase ep } := by
  have halias : ∀ e, (t.epToVip.erase ep).lookup e = some v ↔ t.epToVip.lookup e = some v := by
    intro e
    rw [HashMap.lookup_erase_eq]
    split
    · rename_i he; subst he; exact iff_of_false (fun hs => by cases hs) hep
    rfl
  exact ⟨⟨h.identified, fun e hl => (halias e).mpr (h.indexed e hl),
    fun w e hw hl hs => h.alone w e hw hl ((halias e).mp hs)⟩,
    ⟨rfl, halias⟩⟩

structure Standing (t : RoutingTable) (v : String) : Prop extends Settled t v where
  healthy : t.Healthy v

theorem Standing.of_same (h : t.Standing v) (hs : SameRoutes t t') (hst : t'.stateOf v = t.stateOf v) :
    t'.Standing v where
  toSettled := h.toSettled.of_same hs
  healthy := by unfold Healthy; rw [hst]; exact h.healthy

theorem Settled.isSome (h : t.Settled v) : (t.lookup v).isSome := by
  obtain ⟨n, hn, _⟩ := h.identified
  obtain ⟨r, hr, _⟩ := Option.map_eq_some_iff.mp hn
  unfold lookup
  rw [hr]
  rfl

theorem Standing.place (h : t.Standing v) (hown : w = v → t.lookup v = some ep)
    (hother : w ≠ v → t.epToVip.lookup ep ≠ some v) :
    (t.place w ep none now).Standing v ∧ SamePlace v t (t.place w ep none now) := by
  obtain ⟨hs, hp⟩ := h.toSettled.place hown hother now
  refine ⟨⟨hs, ?_⟩, hp⟩
  unfold Healthy
  rw [place_stateOf h.isSome]
  exact h.healthy

theorem Standing.update (h : t.Standing v) (hown : w = v → t.lookup v = some ep)
    (now : Instant) : (t.update w ep none now).Standing v ∧ SamePlace v t (t.update w ep none now) := by
  have hprune : SameRoutes t (t.pruneIfDue now) := ⟨t.pruneIfDue_lookup, t.pruneIfDue_nodeOf, t.pruneIfDue_ep now⟩
  have h₁ : (t.pruneIfDue now).Standing v := h.of_same hprune (by unfold stateOf; rw [pruneIfDue_table])
  have hown₁ : w = v → (t.pruneIfDue now).lookup v = some ep := fun hw => (hprune.lookup v).trans (hown hw)
  -- An endpoint of the route is not given to another one.
  have hrej : w ≠ v → t.epToVip.lookup ep = some v → (t.pruneIfDue now).aliasOf w ep none = .reject :=
    fun hw hep => h₁.toSettled.aliasOf h₁.healthy hw (by rw [hprune.ep]; exact hep)
  have hother :
      (t.pruneIfDue now).aliasOf w ep none ≠ .reject → w ≠ v → (t.pruneIfDue now).epToVip.lookup ep ≠ some v :=
    fun hno hw hep => hno (hrej hw (hprune.ep ▸ hep))
  have hlift : ∀ t'', t''.Standing v ∧ SamePlace v (t.pruneIfDue now) t'' → t''.Standing v ∧ SamePlace v t t'' :=
    fun t'' ht => ⟨ht.1, (hprune.samePlace).trans ht.2⟩
  unfold RoutingTable.update
  dsimp only
  split
  · rename_i ha
    exact hlift _ (h₁.place hown₁ (hother (by rw [ha]; exact nofun)))
  · exact hlift _ ⟨h₁, .refl _ v⟩
  · rename_i prev ha
    rcases (t.pruneIfDue now).aliasOf_cases w ep none with ⟨hr, _⟩ | ⟨_, hr | hr | ⟨_, n, _, _, _, hn, _⟩⟩
    · rw [ha] at hr; cases hr
    · rw [ha] at hr; cases hr
    · rw [ha] at hr; cases hr
    · cases hn
  · rename_i ha
    have hno : (t.pruneIfDue now).epToVip.lookup ep ≠ some v := by
      by_cases hw : w = v
      · intro hep
        subst hw
        rw [aliasOf, hep] at ha
        simp at ha
      · exact hother (by rw [ha]; exact nofun) hw
    obtain ⟨hs, hp⟩ := h₁.toSettled.dropEp hno
    obtain ⟨hs', hp'⟩ := Standing.place ⟨hs, h₁.healthy⟩ hown₁
      (fun _ hep => by rw [AList.lookup_erase] at hep; cases hep)
    exact hlift _ ⟨hs', hp.trans hp'⟩

theorem Healthy.promote (h : t.Healthy v) : (t.promoteStaleIfNeeded ep now).Healthy v := by
  unfold promoteStaleIfNeeded onVip
  split
  · rename_i vip _
    unfold Healthy stateOf onEntry at *
    rw [HashMap.lookup_modify]
    split
    · rename_i hv
      subst hv
      cases hl : t.table.lookup v with
      | none => exact ⟨nofun, nofun⟩
      | some e =>
        rw [hl] at h
        simp only [Option.map_some]
        split
        · exact ⟨nofun, nofun⟩
        exact h
    · exact h
  · exact h

end

end RoutingTable

/-! ## Datagrams -/

namespace Inbound

open RoutingTable

section
variable {γ : Type} {P : Primitives} {s s' s'' : Inbound γ} {v : String}

structure Rests (s s' : Inbound γ) : Prop where
  primary : s'.core.cryptoKeys.primary = s.core.cryptoKeys.primary
  routes : SameRoutes s.core.routing s'.core.routing

theorem Rests.refl (s : Inbound γ) : Rests s s := ⟨rfl, .refl _⟩

theorem Rests.trans (h : Rests s s') (h' : Rests s' s'') : Rests s s'' :=
  ⟨h'.primary.trans h.primary, h.routes.trans h'.routes⟩

def memory (s : Inbound γ) : List (ReliableDedupKey × UInt32) × List (Instant × ReliableDedupKey × UInt32) :=
  (s.reliableSeen, s.reliableSeenTimeline)

structure Keeps (s s' : Inbound γ) : Prop extends Rests s s' where
  myVip : s'.core.myVip = s.core.myVip
  memory : s'.memory = s.memory

theorem Keeps.refl (s : Inbound γ) : Keeps s s := ⟨.refl s, rfl, rfl⟩

theorem Keeps.trans (h : Keeps s s') (h' : Keeps s' s'') : Keeps s s'' :=
  ⟨h.toRests.trans h'.toRests, h'.myVip.trans h.myVip, h'.memory.trans h.memory⟩

structure Spares (v : String) (s s' : Inbound γ) : Prop where
  primary : s'.core.cryptoKeys.primary = s.core.cryptoKeys.primary
  route : s.core.routing.Standing v → s'.core.routing.Standing v ∧ SamePlace v s.core.routing s'.core.routing

theorem Spares.refl (v : String) (s : Inbound γ) : Spares v s s := ⟨rfl, fun h => ⟨h, .refl _ v⟩⟩

theorem Spares.trans (h : Spares v s s') (h' : Spares v s' s'') : Spares v s s'' where
  primary := h'.primary.trans h.primary
  route hst := by
    obtain ⟨hst', hp⟩ := h.route hst
    obtain ⟨hst'', hp'⟩ := h'.route hst'
    exact ⟨hst'', hp.trans hp'⟩

theorem touch_keeps (s : Inbound γ) (a : Arrival) : Keeps s (s.touch a) := by
  refine ⟨⟨rfl, ?_⟩, rfl, rfl⟩
  unfold touch Engine.touchRoutingEndpoint
  dsimp only
  split
  · exact promoteStaleIfNeeded_same _
  exact .refl _

theorem touch_spares : Spares v s (s.touch a) where
  primary := rfl
  route h := by
    have hr := (s.touch_keeps a).routes
    refine ⟨⟨h.toSettled.of_same hr, ?_⟩, hr.samePlace⟩
    unfold touch Engine.touchRoutingEndpoint
    dsimp only
    split
    · exact h.healthy.promote
    exact h.healthy

/-! ### Learning a route -/

theorem updateRoute_spares (hown : s.core.routing.Standing v → w = v → s.core.routing.lookup v = some a.fromEp) :
    Spares v s (s.updateRoute w none a) := by
  have hcore : Spares v s { s with core := s.core.updateRoute w a.fromEp none (a.order s.core.routing) a.now } := by
    unfold Engine.updateRoute
    split
    · exact .refl v s
    refine ⟨?_, fun h => ?_⟩
    · dsimp only
      split
      · split <;> rfl
      rfl
    obtain ⟨hst, hp⟩ := h.update (hown h) a.now
    have hstamp := stampRelayPath_same (s.core.routing.update w a.fromEp none a.now) w s.core.myVip
      (a.order s.core.routing) a.now
    exact ⟨hst.of_same hstamp.1 (hstamp.2 v), hp.trans hstamp.1.samePlace⟩
  unfold updateRoute
  split
  · exact .refl v s
  dsimp only
  split
  · split
    · exact ⟨hcore.primary, hcore.route⟩
    · exact hcore
  · exact hcore

theorem own_endpoint (hst : e.routing.Standing v)
    (hallow : e.allowHijack w fromEp false = true) (hw : w = v) : e.routing.lookup v = some fromEp := by
  subst hw
  have hsome := hst.isSome
  have hh := hst.healthy
  unfold Healthy stateOf at hh
  unfold Engine.allowHijack at hallow
  unfold RoutingTable.lookup at hsome ⊢
  cases hl : e.routing.table.lookup w with
  | none => rw [hl] at hsome; cases hsome
  | some r =>
    rw [hl] at hallow hh
    simp only [Option.map_some, ne_eq, Option.some.injEq] at hh
    simp only [hh.1, hh.2, decide_false, Bool.or_false, decide_eq_true_eq] at hallow
    rw [Option.map_some, hallow]

/-- What a control message does, one thing after the other. -/
inductive Act (authenticated : Bool) (a : Arrival) : Inbound γ → Inbound γ → Prop
  | limit (s : Inbound γ) (tag : Tag) :
    Act authenticated a s { s with core := (s.core.admitControl tag a.fromEp authenticated a.now).1 }
  | touch (s : Inbound γ) : Act authenticated a s (s.touch a)
  | learn {s : Inbound γ} {w : String} (hallow : s.core.allowHijack w a.fromEp authenticated = true) :
    Act authenticated a s (s.updateRoute w none a)

abbrev Acts (authenticated : Bool) (a : Arrival) : Inbound γ → Inbound γ → Prop :=
  Relation.ReflTransGen (Act authenticated a)

theorem Acts.spares (h : Acts false a s s') : Spares v s s' := by
  induction h with
  | refl => exact .refl v s
  | tail _ hact ih =>
    refine ih.trans ?_
    cases hact with
    | limit => exact ⟨rfl, fun h => ⟨h, .refl _ v⟩⟩
    | touch => exact touch_spares
    | learn hallow => exact updateRoute_spares fun hst hw => own_endpoint hst hallow hw

section
variable {authenticated : Bool}

theorem acts_learnRoute : Acts authenticated a s (s.learnRouteFromHolePunchBody P body authenticated a) := by
  have htouch : Acts authenticated a s (s.touch a) := .single (.touch s)
  unfold learnRouteFromHolePunchBody
  dsimp only
  split
  · exact htouch
  split
  · exact htouch
  split
  · exact htouch
  split
  · exact htouch
  split
  · rename_i hallow
    exact htouch.tail (.learn hallow)
  exact htouch

theorem acts_applyHbBody : Acts authenticated a s (s.applyHbBody P body authenticated a) := by
  have htouch : Acts authenticated a s (s.touch a) := .single (.touch s)
  unfold applyHbBody
  dsimp only
  split
  · exact htouch
  split
  · exact htouch.trans acts_learnRoute
  exact htouch

theorem acts_handleMctl : Acts authenticated a s (s.handleMctl P body authenticated a) := by
  have hb : ∀ (c : Prop) [Decidable c] (vip : Bytes),
      Acts authenticated a s (if c then s.applyHbBody P vip authenticated a else s) := by
    intro c _ vip
    split
    · exact acts_applyHbBody
    exact .refl
  unfold handleMctl
  split
  · dsimp only
    split
    · exact (hb _ _).trans acts_learnRoute
    exact hb _ _
  · exact .refl

theorem acts_dispatchControl {tag : Tag} : Acts authenticated a s (s.dispatchControl P tag body authenticated a).1 := by
  have hadmit : Acts authenticated a s { s with core := _ } := .single (.limit s tag)
  unfold dispatchControl
  dsimp only
  repeat' split
  · exact hadmit
  · exact hadmit
  · exact hadmit.tail (.touch _)
  · exact hadmit
  · exact hadmit.trans acts_handleMctl
  · exact hadmit.trans acts_applyHbBody
  · exact hadmit.trans acts_learnRoute
  · exact hadmit.trans acts_learnRoute
  · exact hadmit

end

/-! ### Control messages -/

theorem hasCrypto_of_primary (h : e.cryptoKeys.primary.isSome) : e.hasCrypto = true := by
  unfold Engine.hasCrypto CryptoPool.hasAny
  rw [h]
  rfl

theorem dispatchControl_silent (hkey : s.core.cryptoKeys.primary.isSome) {tag : Tag} :
    (s.dispatchControl P tag body false a).2 = [] := by
  have hgate :
      (s.core.admitControl tag a.fromEp false a.now).2 = true → allowUnauthControlTagWithCrypto tag = true := by
    unfold Engine.admitControl
    dsimp only
    rw [hasCrypto_of_primary hkey]
    intro h
    simp only [Bool.not_false, Bool.and_true, Bool.true_and, Bool.not_not, Bool.and_eq_true] at h
    exact h.2
  unfold dispatchControl
  dsimp only
  split
  · rfl
  rename_i hin
  split
  · rfl
  split
  · rfl
  split
  · rename_i htag
    have hallow := hgate (by simpa using hin)
    exfalso
    simp only [List.mem_cons, List.not_mem_nil, or_false] at htag
    rcases htag with rfl | rfl | rfl | rfl | rfl <;> exact absurd hallow (by decide)
  repeat' split
  all_goals rfl

/-- No key that is tried on the datagram opens it as a sealed control frame. -/
def Unopened (P : Primitives) (s : Inbound γ) (d : Bytes × Arrival) : Prop :=
  ∀ body, parseDatagram d.1 = some (.control pktCtsig body) →
    (ControlCrypto.openWithKeys P (body.take wireCounterLen) (body.drop wireCounterLen) s.core.control
      (s.core.cryptoKeys.keysForDecrypt d.2.fromEp)).2 = none

theorem openSigned_of_unopened {c : ControlCrypto} {keys : List AeadKey}
    (h : (ControlCrypto.openWithKeys P (body.take wireCounterLen) (body.drop wireCounterLen) c keys).2 = none)
    (srcKey : UInt64) (now : Instant) (tie : Nat) : (c.openSigned P keys srcKey body now tie).2 = none := by
  unfold ControlCrypto.openSigned
  split
  · rfl
  dsimp only
  generalize ControlCrypto.openWithKeys P (body.take wireCounterLen) (body.drop wireCounterLen) c keys = r at h
  obtain ⟨c', opened⟩ := r
  cases h
  rfl

theorem handleSignedWrapper_rests
    (h : (ControlCrypto.openWithKeys P (body.take wireCounterLen) (body.drop wireCounterLen) s.core.control
      (s.core.cryptoKeys.keysForDecrypt a.fromEp)).2 = none) :
    Rests s (s.handleSignedWrapper P body a).1 ∧ (s.handleSignedWrapper P body a).2 = [] := by
  have hnone := openSigned_of_unopened h (srcAddrKey a.fromEp) a.now a.tie
  unfold handleSignedWrapper Engine.handleSignedWrapper
  simp only [hnone]
  exact ⟨⟨rfl, .refl _⟩, trivial⟩

/-! ### Compact packets -/

/-- No control message is handed on. -/
def NoDispatch (outs : List Output) : Prop := ∀ tag body ep, Output.dispatchControl tag body ep ∉ outs

theorem noDispatch_nil : NoDispatch [] := fun _ _ _ => List.not_mem_nil

theorem handleReliablePacket_rests (hkey : s.core.cryptoKeys.primary.isSome) (body : Bytes) (a : Arrival) :
    Rests s (s.handleReliablePacket P body a).1 ∧ (s.handleReliablePacket P body a).2 = [] := by
  have hprune : Rests s (s.pruneReliableSeenCache a.now) := ⟨rfl, .refl _⟩
  unfold handleReliablePacket
  dsimp only
  split
  · exact ⟨.refl s, rfl⟩
  split
  · exact ⟨.refl s, rfl⟩
  split
  · exact ⟨hprune, rfl⟩
  have hnote : Rests s ((s.pruneReliableSeenCache a.now).noteReliableSeen
      ((s.pruneReliableSeenCache a.now).reliableDedupKey a.fromEp)
        (UInt32.ofNat (fromBeBytes (body.take 4))) a.now) :=
    ⟨rfl, .refl _⟩
  have hseen := hnote.trans (touch_keeps _ a).toRests
  rw [if_pos (hasCrypto_of_primary (by rw [hseen.primary]; exact hkey))]
  exact ⟨hseen, rfl⟩

theorem handleMdatLike_keeps (s : Inbound γ) {raw : Bytes} : Keeps s (s.handleMdatLike raw a) := by
  unfold handleMdatLike
  split
  · exact .refl s
  exact s.touch_keeps a

theorem handleEncrypted_keeps (s : Inbound γ) :
    Keeps s (s.handleEncrypted P body a).1 ∧ NoDispatch (s.handleEncrypted P body a).2 := by
  have hcore : Keeps s { s with core := (s.core.handleEncrypted P body a.fromEp).1 } := by
    unfold Engine.handleEncrypted
    split
    · exact .refl s
    split
    · exact .refl s
    split
    · exact .refl s
    exact ⟨⟨rfl, .refl _⟩, rfl, rfl⟩
  unfold handleEncrypted
  dsimp only
  split
  · rename_i plain ep hout
    refine ⟨hcore.trans (handleMdatLike_keeps _), ?_⟩
    intro tag b e hmem
    rw [hout] at hmem
    cases List.mem_singleton.mp hmem
  · exact ⟨hcore, noDispatch_nil⟩

theorem onRouting_keeps {f : RoutingTable → RoutingTable} (hf : ∀ t, SameRoutes t (f t)) (s : Inbound γ) :
    Keeps s (s.onRouting f) := ⟨⟨rfl, hf _⟩, rfl, rfl⟩

theorem handleHealSuccess_keeps {endpoint : SocketAddr} {rttMs : Int} :
    Keeps s (s.handleHealSuccess vip endpoint rttMs now) := by
  have hend : Keeps s (s.endHeal vip) := by
    unfold endHeal
    split
    · exact .refl s
    exact ⟨⟨rfl, .refl _⟩, rfl, rfl⟩
  unfold handleHealSuccess
  split
  · exact .refl s
  generalize s.endHeal vip = s' at hend
  dsimp only
  split
  · exact hend
  refine hend.trans (onRouting_keeps (fun t => onEntry_same t ?_) s')
  exact fun _ => ⟨rfl, rfl⟩

theorem handlePongBody_keeps (s : Inbound γ) : Keeps s (s.handlePongBody body a) := by
  unfold handlePongBody
  split
  · exact .refl s
  rename_i pingId owd _
  dsimp only
  split
  · exact s.touch_keeps a
  rename_i pending _
  split
  · exact s.touch_keeps a
  generalize (max ((a.epochMs - pending.sentAtMs : Nat) : Int) 1) = rtt
  have hping : Keeps s { s.touch a with pendingPings := (s.touch a).pendingPings.erase pingId } :=
    (s.touch_keeps a).trans ⟨⟨rfl, .refl _⟩, rfl, rfl⟩
  have hrtt := hping.trans (onRouting_keeps (fun t => t.noteRtt_same a.fromEp rtt a.now) _)
  have howd : ∀ (c : Prop) [Decidable c] (s' : Inbound γ), Keeps s s' →
      Keeps s (if c then s'.onRouting fun t => t.noteFwdOwd a.fromEp owd rtt none a.now else s') := by
    intro c _ s' hs'
    split
    · exact hs'.trans (onRouting_keeps (fun t => t.noteFwdOwd_same) _)
    exact hs'
  split
  · exact (howd _ _ hrtt).trans handleHealSuccess_keeps
  · exact howd _ _ hrtt
  exact howd _ _ hrtt

theorem handleCompactPacket_rests (hkey : s.core.cryptoKeys.primary.isSome) (ty : CompactPacketType) (body : Bytes)
    (a : Arrival) :
    Rests s (s.handleCompactPacket P ty body a).1 ∧ NoDispatch (s.handleCompactPacket P ty body a).2 := by
  cases ty with
  | reliable =>
    obtain ⟨hr, ho⟩ := handleReliablePacket_rests (P := P) hkey body a
    exact ⟨hr, by show NoDispatch (s.handleReliablePacket P body a).2; rw [ho]; exact noDispatch_nil⟩
  | encrypted => exact s.handleEncrypted_keeps.imp_left Keeps.toRests
  | data =>
    have hdrop : s.handleData body a = (s, []) := if_pos (hasCrypto_of_primary hkey)
    show Rests s (s.handleData body a).1 ∧ NoDispatch (s.handleData body a).2
    rw [hdrop]
    exact ⟨.refl s, noDispatch_nil⟩
  | ping => exact ⟨(s.touch_keeps a).toRests, noDispatch_nil⟩
  | pong => exact ⟨s.handlePongBody_keeps.toRests, noDispatch_nil⟩
  | ack => exact ⟨.refl s, noDispatch_nil⟩
  | fec => exact ⟨.refl s, noDispatch_nil⟩
  | joinAck => exact ⟨.refl s, noDispatch_nil⟩

theorem handleFec_rests (hkey : s.core.cryptoKeys.primary.isSome) (rs : Codec γ UInt8) (buf : Bytes) (a : Arrival) :
    Rests s (s.handleFec P rs buf a).1 ∧ NoDispatch (s.handleFec P rs buf a).2 := by
  -- The packets that a shard completes are handled one after the other.
  refine List.foldlRecOn (motive := fun acc : Inbound γ × _ => Rests s acc.1 ∧ NoDispatch acc.2) _ _
    ⟨⟨rfl, .refl _⟩, noDispatch_nil⟩ fun acc h pkt _ => ?_
  unfold handleRecovered
  split
  · rename_i ty body _
    have hkey' : acc.1.core.cryptoKeys.primary.isSome := by rw [h.1.primary]; exact hkey
    obtain ⟨hr, ho⟩ := handleCompactPacket_rests (P := P) hkey' ty body a
    refine ⟨h.1.trans hr, fun tag b e hmem => ?_⟩
    rcases List.mem_append.mp hmem with hmem | hmem
    · exact h.2 tag b e hmem
    exact ho tag b e hmem
  exact h

/-! ### Any sequence of datagrams -/

/-- What a datagram leaves of a route in good standing, though it may be marked stale or degraded. -/
structure Leaves (v : String) (s s' : Inbound γ) (outs : List Output) : Prop where
  primary : s'.core.cryptoKeys.primary = s.core.cryptoKeys.primary
  settled : s'.core.routing.Settled v
  place : SamePlace v s.core.routing s'.core.routing
  quiet : NoDispatch outs

theorem Rests.leaves (h : Rests s s') (hst : s.core.routing.Standing v) {outs : List Output} (ho : NoDispatch outs) :
    Leaves v s s' outs :=
  ⟨h.primary, hst.toSettled.of_same h.routes, h.routes.samePlace, ho⟩

theorem Spares.leaves (h : Spares v s s') (hst : s.core.routing.Standing v) : Leaves v s s' [] :=
  ⟨h.primary, (h.route hst).1.toSettled, (h.route hst).2, noDispatch_nil⟩

section
variable (hkey : s.core.cryptoKeys.primary.isSome) (hst : s.core.routing.Standing v)
include hkey hst

theorem handleParsedPacket_leaves {tag : Tag}
    (hun : tag = pktCtsig → (ControlCrypto.openWithKeys P (body.take wireCounterLen) (body.drop wireCounterLen)
      s.core.control (s.core.cryptoKeys.keysForDecrypt a.fromEp)).2 = none) :
    Leaves v s (s.handleParsedPacket P tag body a).1 (s.handleParsedPacket P tag body a).2 := by
  unfold handleParsedPacket
  split
  · exact (Rests.refl s).leaves hst noDispatch_nil
  split
  · refine Rests.leaves ?_ hst noDispatch_nil
    unfold applyPmarBody
    split
    · exact .refl s
    exact ⟨rfl, .refl _⟩
  split
  · rename_i htag
    obtain ⟨hr, ho⟩ := handleSignedWrapper_rests (hun htag)
    exact hr.leaves hst (by rw [ho]; exact noDispatch_nil)
  rw [dispatchControl_silent hkey]
  exact acts_dispatchControl.spares.leaves hst

theorem step_leaves (rs : Codec γ UInt8)
    {d : Bytes × Arrival} (hun : s.Unopened P d) : Leaves v s (s.step P rs d).1 (s.step P rs d).2 := by
  unfold step handlePacket
  split
  · exact (Rests.refl s).leaves hst noDispatch_nil
  · rename_i tag body hparse
    exact handleParsedPacket_leaves hkey hst fun htag => hun body (by rw [hparse, htag])
  · obtain ⟨hr, ho⟩ := handleFec_rests (P := P) hkey rs d.1 d.2
    exact hr.leaves hst ho
  · rename_i ty body _ _
    obtain ⟨hr, ho⟩ := handleCompactPacket_rests (P := P) hkey ty body d.2
    exact hr.leaves hst ho

end

/-- Datagrams that no key opens, from whatever address, leave a settled route and the endpoints that
are taken for it alone as long as the route is neither stale nor degraded. -/
theorem live_route_unmoved (P : Primitives) (rs : Codec γ UInt8) (s : Inbound γ) (ds : List (Bytes × Arrival))
    (v : String) (hkey : s.core.cryptoKeys.primary.isSome)
    (hun : Each (step P rs) s ds fun s d => s.Unopened P d)
    (hlive : ∀ i, (stateAt (step P rs) s ds i).core.routing.Healthy v) (hset : s.core.routing.Settled v) :
    SamePlace v s.core.routing (run (step P rs) s ds).core.routing ∧ NoDispatch
    (trace (step P rs) s ds) := by
  induction ds generalizing s with
  | nil => exact ⟨.refl _ v, noDispatch_nil⟩
  | cons d ds ih =>
    have hstep := step_leaves hkey ⟨hset, hlive 0⟩ rs (hun 0 d rfl)
    obtain ⟨hp, ho⟩ := ih (s.step P rs d).1 (by rw [hstep.primary]; exact hkey) (fun i a ha => hun (i + 1) a ha)
      (fun i => hlive (i + 1)) hstep.settled
    refine ⟨hstep.place.trans hp, fun tag body ep hmem => ?_⟩
    rcases List.mem_append.mp hmem with hmem | hmem
    · exact hstep.quiet tag body ep hmem
    exact ho tag body ep hmem

end

/-! ### A punch for another address -/

def peerEp : SocketAddr := .v4 0xC0A80102 7777

/-- A table with one route, which is active. -/
def oneRoute (nodeId : String) : RoutingTable :=
  { RoutingTable.new 0 with
    table := AList.insert "10.0.0.2" { RouteEntry.new peerEp 50 0 with nodeId := nodeId, state := .active } ∅
    epToVip := AList.insert peerEp "10.0.0.2" ∅ }

def oneRouteEngine (nodeId : String) : Inbound Unit where
  core := (Engine.new (oneRoute nodeId) 0x0A000001 "a" 24 0).setCryptoKey (.filled 7)
  fecDecoders := ∅
  pmtud := .new
  mtuPin := false
  pendingPings := ∅
  pendingHealVips := []
  reliableSeen := []
  reliableSeenTimeline := []
  plainDataLimiter := .new 200 200 0
  multipathBandwidthProber := false

def noCodec : Codec Unit UInt8 := ⟨fun _ _ => none, fun _ _ => none, fun _ _ => none⟩

/-- An unsealed hole punch for an unused address, with the source address of the route. -/
def spoofedPunch : Bytes × Arrival :=
  (frameWithTag pktHpch "10.0.0.3".toUTF8.toList, ⟨peerEp, 1, 0, 0, fun _ => 0, fun _ => [], .asStored⟩)

theorem spoofedPunch_unopened {s : Inbound Unit} : s.Unopened .transparent spoofedPunch := by
  intro body h
  have hparse : parseDatagram spoofedPunch.1 = some (.control pktHpch "10.0.0.3".toUTF8.toList) := by decide +kernel
  rw [hparse] at h
  cases h

theorem oneRoute_settled : (oneRoute "b").Settled "10.0.0.2" where
  identified := ⟨"b", rfl, by decide⟩
  indexed := by
    intro ep hl
    cases hl
    rfl
  alone := by
    intro w ep hw hl
    have hnone : (oneRoute "b").lookup w = none := by
      unfold RoutingTable.lookup oneRoute
      rw [HashMap.lookup_insert_eq, if_neg hw]
      rfl
    rw [hnone] at hl
    cases hl

/-- The identified route keeps its endpoint. -/
theorem spoofedPunch_repelled :
    (run (step .transparent noCodec) (oneRouteEngine "b") [spoofedPunch]).core.routing.epToVip.lookup peerEp =
      some "10.0.0.2" := by
  have hlive : ∀ i, (stateAt (step .transparent noCodec) (oneRouteEngine "b") [spoofedPunch] i
      ).core.routing.Healthy "10.0.0.2" := by
    intro i
    cases i with
    | zero => exact ⟨by decide, by decide⟩
    | succ i =>
      have hlast : stateAt (step .transparent noCodec) (oneRouteEngine "b") [spoofedPunch] (i + 1) =
          (step .transparent noCodec (oneRouteEngine "b") spoofedPunch).1 := by
        unfold stateAt
        rw [List.take_succ_cons, List.take_nil]
        rfl
      rw [hlast]
      exact ⟨by decide +kernel, by decide +kernel⟩
  have hun : Each (step .transparent noCodec) (oneRouteEngine "b") [spoofedPunch] fun s d =>
      s.Unopened .transparent d := by
    intro i d hd
    cases i with
    | zero => cases hd; exact spoofedPunch_unopened
    | succ i => cases hd
  obtain ⟨hplace, _⟩ :=
    live_route_unmoved .transparent noCodec (oneRouteEngine "b") [spoofedPunch] "10.0.0.2" rfl hun hlive
    oneRoute_settled
  exact (hplace.aliases peerEp).mpr rfl

/-- A route without a node id loses its endpoint to an address that nobody has. -/
theorem spoofedPunch_takes_endpoint :
    (oneRouteEngine "").core.cryptoKeys.primary.isSome ∧ (oneRouteEngine "").Unopened .transparent spoofedPunch ∧
    (oneRouteEngine "").core.routing.stateOf "10.0.0.2" = some .active ∧
    (oneRouteEngine "").core.routing.epToVip.lookup peerEp = some "10.0.0.2" ∧
    (run (step .transparent noCodec) (oneRouteEngine "") [spoofedPunch]).core.routing.stateOf "10.0.0.2" =
      some .active ∧
    (run (step .transparent noCodec) (oneRouteEngine "") [spoofedPunch]).core.routing.epToVip.lookup peerEp =
      some "10.0.0.3" :=
  ⟨rfl, spoofedPunch_unopened, rfl, rfl, by decide +kernel, by decide +kernel⟩

end Inbound

end ConnectUnit
