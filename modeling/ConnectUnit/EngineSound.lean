import ConnectUnit.DataPlaneSound
import ConnectUnit.Engine

/-!
# The engine's two planes

Every event moves the data plane and the control plane by one move that is read off the state before it.
-/

namespace ConnectUnit

variable {e : Engine} {ev : Instant × Event} {now : Instant} {body : Bytes} {fromEp : SocketAddr} {tie : Nat}
variable {vip nodeId : String} {dest : SocketAddr} {payload : Bytes} {order : List String}

namespace Engine

/-! ## The data plane -/

def dataPlane (e : Engine) : DataPlane := ⟨e.dataPlanePrimaryKey, e.data⟩

def removedVips (P : Primitives) (e : Engine) (ev : Instant × Event) : List String :=
  match ev.2 with
  | .peerRouteRemoved vip => [vip]
  | .leave nodeId vip pick => if (e.leavingRoute P nodeId vip pick).isSome then [vip] else []
  | .vipFight loser vip => if (e.routeOfNode loser vip).isSome then [vip] else []
  | .staleEvict staleMark staleAge order =>
    staleVictims (e.routing.markStaleIfIdle staleMark ev.1) staleAge order ev.1
  | .setIdentity myVip _ pre _ order =>
    if myVip = "" then []
    else (e.routing.drainVipsOutsideSubnet myVip (max 8 (min pre 30)) order ev.1).2.map (·.1)
  | _ => []

def dataMove (P : Primitives) (e : Engine) (ev : Instant × Event) : DataMove :=
  match ev.2 with
  | .setCryptoKey key => .install (some key)
  | .addCryptoKey key => if e.cryptoKeys.primary.isNone then .install (some key) else .keep
  | .prepareJoin key _ _ => if e.joinThrottled ev.1 then .keep else .rekey key
  | .resetSession => .install none
  | .encryptTo destVip payload => .encrypt e.myVipU32 destVip payload
  | .sendMenc dest payload =>
    if !e.hasCrypto then .keep
    else
      match e.endpointToVipU32 dest with
      | none => .keep
      | some destVip => if e.myVipU32 = 0 then .keep else .encrypt e.myVipU32 destVip payload
  | .encrypted body fromEp =>
    if body.length < wireCounterLen + dataTagLen then .keep
    else
      match e.endpointToVipU32 fromEp with
      | none => .keep
      | some peerVip => if e.myVipU32 = 0 then .keep else .receive peerVip e.myVipU32 body
  | _ => .forget ((e.removedVips P ev).filterMap ipv4ToU32)

def dataOutput : Output → Option DataOutput
  | .sealData aead counter plaintext => some (.sealed aead counter plaintext)
  | .handleMdatLike plain _ => some (.opened plain)
  | _ => none

theorem onPeerRouteRemoved_eq : e.onPeerRouteRemoved vip =
      { e with data := ([vip].filterMap ipv4ToU32).foldl DataCrypto.clearDataCryptoForVip e.data } := by
  unfold onPeerRouteRemoved
  cases h : ipv4ToU32 vip <;> simp [h]

theorem routesRemoved_eq {vips : List String} : e.routesRemoved vips =
      { e with data := (vips.filterMap ipv4ToU32).foldl DataCrypto.clearDataCryptoForVip e.data } := by
  unfold routesRemoved
  induction vips generalizing e with
  | nil => rfl
  | cons vip vips ih =>
    have hcons : (vip :: vips).filterMap ipv4ToU32 = [vip].filterMap ipv4ToU32 ++ vips.filterMap ipv4ToU32 :=
      List.filterMap_append (l := [vip])
    rw [List.foldl_cons, ih, onPeerRouteRemoved_eq, hcons, List.foldl_append]

theorem dataPlane_of_same {e' : Engine} (hk : e'.cryptoKeys.primary = e.cryptoKeys.primary) (hd : e'.data = e.data) :
    e'.dataPlane = e.dataPlane := by
  unfold dataPlane dataPlanePrimaryKey
  rw [hk, hd]

theorem dataPlane_setKeys (e : Engine) {keys : CryptoPool} (h : keys.primary = e.cryptoKeys.primary) :
    { e with cryptoKeys := keys }.dataPlane = e.dataPlane := dataPlane_of_same h rfl

theorem unbindPeers_primary (eps : List SocketAddr) (pool : CryptoPool) :
    (eps.foldl CryptoPool.unbindPeer pool).primary = pool.primary := by
  exact List.foldlRecOn (motive := fun p : CryptoPool => p.primary = pool.primary) eps _ rfl fun _ h _ _ => h

section
variable (P : Primitives)

theorem buildSignedOrPlain_dataPlane (cached : Bool) (e : Engine) (key : Option AeadKey) (dest : SocketAddr)
    (tag : Tag) (body : Bytes) : (buildSignedOrPlain P cached e key dest tag body).1.dataPlane = e.dataPlane ∧
    (buildSignedOrPlain P cached e key dest tag body).2.filterMap dataOutput = [] := by
  unfold buildSignedOrPlain
  split
  · exact ⟨rfl, rfl⟩
  split
  · refine ⟨rfl, ?_⟩
    dsimp only
    unfold sealControlOutput
    split <;> rfl
  · exact ⟨rfl, rfl⟩

theorem prepareJoin_dataPlane (e : Engine) (key : Key) (target : Option SocketAddr) (body : Bytes) (now : Instant) :
    (e.prepareJoin P key target body now).1.dataPlane =
    (if e.joinThrottled now then e else e.joinKey key now).dataPlane ∧
    (e.prepareJoin P key target body now).2.filterMap dataOutput = [] := by
  unfold prepareJoin
  split
  · exact ⟨rfl, rfl⟩
  cases target with
  | none => exact ⟨rfl, rfl⟩
  | some target =>
    obtain ⟨hs, ho⟩ := buildSignedOrPlain_dataPlane P false (e.joinKey key now)
      ((e.joinKey key now).cryptoKeys.keyForDest target) target pktHpch (e.joinKey key now).myVip.toUTF8.toList
    refine ⟨(buildSignedOrPlain_dataPlane P false ..).1.trans hs, ?_⟩
    dsimp only
    rw [List.filterMap_append]
    exact congrArg₂ (· ++ ·) ho (buildSignedOrPlain_dataPlane P false ..).2

theorem filterMap_sealDataOutput (call : Option (DataPlaneAead × Nat)) (payload : Bytes) :
    (sealDataOutput call payload).filterMap dataOutput = sealedOutput call payload := by
  cases call <;> rfl

theorem sendMenc_dataPlane :
    (e.sendMenc P dest payload).1.dataPlane = (e.dataPlane.step P (e.dataMove P (now, .sendMenc dest payload))).1 ∧
    (e.sendMenc P dest payload).2.filterMap dataOutput =
    (e.dataPlane.step P (e.dataMove P (now, .sendMenc dest payload))).2 := by
  simp only [sendMenc, dataMove]
  split
  · exact ⟨rfl, rfl⟩
  cases e.endpointToVipU32 dest with
  | none => exact ⟨rfl, rfl⟩
  | some destVip =>
    dsimp only
    split
    · exact ⟨rfl, rfl⟩
    refine ⟨rfl, ?_⟩
    have hsend : ∀ o : Option Bytes, (o.map (Output.send dest)).toList.filterMap dataOutput = [] := by
      intro o; cases o <;> rfl
    rw [List.filterMap_append, hsend, List.append_nil]
    exact filterMap_sealDataOutput ..

theorem handleEncrypted_dataPlane : (e.handleEncrypted P body fromEp).1.dataPlane =
    (e.dataPlane.step P (e.dataMove P (now, .encrypted body fromEp))).1 ∧
    (e.handleEncrypted P body fromEp).2.filterMap dataOutput =
    (e.dataPlane.step P (e.dataMove P (now, .encrypted body fromEp))).2 := by
  simp only [handleEncrypted, dataMove]
  split
  · exact ⟨rfl, rfl⟩
  cases e.endpointToVipU32 fromEp with
  | none => exact ⟨rfl, rfl⟩
  | some peerVip =>
    dsimp only
    split
    · exact ⟨rfl, rfl⟩
    refine ⟨rfl, ?_⟩
    have hout : ∀ o : Option Bytes, (mdatOutput o fromEp).filterMap dataOutput = openedOutput o := by
      intro o; cases o <;> rfl
    exact hout _

theorem leave_dataPlane {pick : Nat} : (e.leave P nodeId vip pick now).dataPlane =
    (e.dataPlane.step P (.forget ((e.removedVips P (now, .leave nodeId vip pick)).filterMap ipv4ToU32))).1 := by
  simp only [leave, removedVips, onPeerRouteRemoved_eq]
  cases e.leavingRoute P nodeId vip pick <;> rfl

theorem vipFight_dataPlane {loser : String} : (e.vipFight loser vip now).dataPlane =
    (e.dataPlane.step P (.forget ((e.removedVips P (now, .vipFight loser vip)).filterMap ipv4ToU32))).1 := by
  simp only [vipFight, removedVips, onPeerRouteRemoved_eq]
  cases e.routeOfNode loser vip <;> rfl

theorem staleEvict_dataPlane {staleMark staleAge : Nat} : (e.staleEvict staleMark staleAge order now).dataPlane =
      (e.dataPlane.step P
        (.forget ((e.removedVips P (now, .staleEvict staleMark staleAge order)).filterMap ipv4ToU32))).1 := by
  simp only [staleEvict, removedVips, routesRemoved_eq]
  exact dataPlane_setKeys { e with data := _ } (unbindPeers_primary _ _)

theorem setIdentity_dataPlane {myVip : String} {pre epoch : Nat} :
    (e.setIdentity myVip nodeId pre epoch order now).dataPlane = (e.dataPlane.step P
        (.forget ((e.removedVips P (now, .setIdentity myVip nodeId pre epoch order)).filterMap ipv4ToU32))).1 := by
  simp only [setIdentity, removedVips, routesRemoved_eq]
  split <;> rfl

theorem step_dataPlane (e : Engine) (ev : Instant × Event) : (e.step P ev).1.dataPlane =
    (e.dataPlane.step P (e.dataMove P ev)).1 ∧ (e.step P ev).2.filterMap dataOutput =
    (e.dataPlane.step P (e.dataMove P ev)).2 := by
  obtain ⟨now, ev⟩ := ev
  cases ev with
  | setCryptoKey key => exact ⟨rfl, rfl⟩
  | addCryptoKey key =>
    simp only [step, addCryptoKey, dataMove]
    split
    · exact ⟨rfl, rfl⟩
    exact ⟨dataPlane_of_same CryptoPool.addKey_primary rfl, rfl⟩
  | bindPeerKey peer key => exact ⟨dataPlane_of_same CryptoPool.addKey_primary rfl, rfl⟩
  | prepareJoin key target body =>
    obtain ⟨hs, ho⟩ := prepareJoin_dataPlane P e key target body now
    simp only [step, dataMove]
    rw [hs, ho]
    split <;> exact ⟨rfl, rfl⟩
  | resetSession => exact ⟨rfl, rfl⟩
  | setIdentity myVip nodeId pre epoch order =>
    exact ⟨setIdentity_dataPlane P, rfl⟩
  | applyLocalVipChange newVip pick =>
    simp only [step, applyLocalVipChange]
    split
    · exact ⟨rfl, rfl⟩
    split <;> exact ⟨rfl, rfl⟩
  | peerRouteRemoved vip =>
    simp only [step, onPeerRouteRemoved_eq]
    exact ⟨rfl, rfl⟩
  | leave nodeId vip pick => exact ⟨leave_dataPlane P, rfl⟩
  | vipFight loser vip => exact ⟨vipFight_dataPlane P, rfl⟩
  | staleEvict staleMark staleAge order => exact ⟨staleEvict_dataPlane P, rfl⟩
  | updateRoute vip ep nodeId order =>
    simp only [step, updateRoute]
    split
    · exact ⟨rfl, rfl⟩
    refine ⟨dataPlane_of_same ?_ rfl, rfl⟩
    dsimp only
    split
    · split <;> rfl
    rfl
  | touchRoutingEndpoint fromEp => exact ⟨rfl, rfl⟩
  | flushLastSeenPending => exact ⟨rfl, rfl⟩
  | encryptTo destVip payload => exact ⟨rfl, filterMap_sealDataOutput ..⟩
  | sendMenc dest payload => exact sendMenc_dataPlane P
  | encrypted body fromEp => exact handleEncrypted_dataPlane P
  | signedWrapper body fromEp tie =>
    simp only [step, handleSignedWrapper]
    split <;> exact ⟨rfl, rfl⟩
  | sendControlPacket dest tag body pick =>
    simp only [step, sendControlPacket]
    split
    · split
      · refine ⟨rfl, ?_⟩
        dsimp only
        unfold sealControlOutput
        split <;> split <;> rfl
      · split <;> exact ⟨rfl, rfl⟩
    · exact ⟨rfl, rfl⟩
  | sendCtrlSignedTo dest tag body => exact buildSignedOrPlain_dataPlane ..
  | enqueueCtrl dest tag body => exact buildSignedOrPlain_dataPlane ..
  | readStateView => exact ⟨rfl, rfl⟩
  | punch task dest tag =>
    simp only [step, punch]
    split
    · exact buildSignedOrPlain_dataPlane ..
    exact ⟨rfl, rfl⟩

theorem simulates_dataPlane : Machine.Simulates (step P) (DataPlane.step P) dataPlane (dataMove P) dataOutput where
  state e ev := (step_dataPlane P e ev).1
  emit e ev := (step_dataPlane P e ev).2

def DropsPeer (P : Primitives) (d : UInt32) (e : Engine) (ev : Instant × Event) : Prop :=
  match ev.2 with
  | .setCryptoKey _ => True
  | .addCryptoKey _ => e.cryptoKeys.primary = none
  | .resetSession => True
  | _ => ∃ vip ∈ e.removedVips P ev, ipv4ToU32 vip = some d

theorem dropsPeer_of_drops {d : UInt32} (h : DataPlane.Drops d (e.dataMove P ev)) : e.DropsPeer P d ev := by
  obtain ⟨now, ev⟩ := ev
  cases ev with
  | setCryptoKey key => exact trivial
  | resetSession => exact trivial
  | addCryptoKey key =>
    simp only [dataMove] at h
    split at h
    · rename_i hp; exact Option.isNone_iff_eq_none.mp hp
    cases h
  | prepareJoin key target body =>
    simp only [dataMove] at h
    split at h <;> cases h
  | encryptTo destVip payload => cases h
  | sendMenc dest payload =>
    simp only [dataMove] at h
    repeat (split at h; · cases h)
    cases h
  | encrypted body fromEp =>
    simp only [dataMove] at h
    repeat (split at h; · cases h)
    cases h
  | _ => exact List.mem_filterMap.mp h

theorem receive_of_dataMove {frame : Bytes}
    {peer my : UInt32} (h : e.dataMove P (now, .encrypted frame fromEp) = .receive peer my body) :
    body = frame ∧ e.endpointToVipU32 fromEp = some peer := by
  simp only [dataMove] at h
  split at h
  · cases h
  split at h
  · cases h
  rename_i hpeer
  split at h
  · cases h
  cases h
  exact ⟨rfl, hpeer⟩

abbrev dataMoves (start : Start) (evs : List (Instant × Event)) : List DataMove :=
  Machine.moves (step P) (dataMove P) start.engine evs

theorem dataPlane_start {start : Start} : start.engine.dataPlane = .new := rfl

end

/-! ## The control plane -/

def signMove (cached : Bool) (key : Option AeadKey) (tag : Tag) (body : Bytes) : ControlMove :=
  if isSignalingTag tag then .keep
  else
    match key with
    | some key => .send cached key tag body
    | none => .keep

def controlMove (e : Engine) (ev : Instant × Event) : ControlMove :=
  match ev.2 with
  | .setCryptoKey _ => .clearCiphers
  | .addCryptoKey _ => if e.cryptoKeys.primary.isNone then .clearCiphers else .keep
  | .prepareJoin key target body =>
    if e.joinThrottled ev.1 then .keep
    else
      match target with
      | none => .keep
      | some target => signMove false ((e.joinKey key ev.1).cryptoKeys.keyForDest target) pktJoin body
  | .resetSession => .reset
  | .signedWrapper body fromEp tie =>
    .deliver (e.cryptoKeys.keysForDecrypt fromEp) (srcAddrKey fromEp) body ev.1 tie
  | .sendControlPacket dest tag body pick =>
    if needsSign tag then
      match e.signingKey dest pick with
      | some key => .send true key tag body
      | none => .keep
    else .keep
  | .sendCtrlSignedTo dest tag body => signMove false (e.cryptoKeys.keyForDest dest) tag body
  | .enqueueCtrl dest tag body => signMove true (e.cryptoKeys.keyForDest dest) tag body
  | .punch task _ tag =>
    match e.snapshots[task]? with
    | some snap => signMove false snap.cryptoKey tag snap.myVip.toUTF8.toList
    | none => .keep
  | _ => .keep

def LocalMove (mv : ControlMove) : Prop :=
  mv = .keep ∨ mv = .clearCiphers ∨ ∃ cached key tag body, mv = .send cached key tag body

theorem signMove_local (cached : Bool) (key : Option AeadKey) (tag : Tag) (body : Bytes) :
    LocalMove (signMove cached key tag body) := by
  unfold signMove
  split
  · exact .inl rfl
  split
  · exact .inr (.inr ⟨_, _, _, _, rfl⟩)
  exact .inl rfl

theorem controlMove_cases (e : Engine) (ev : Instant × Event) : ev.2 = .resetSession ∨
    (∃ body fromEp tie, ev.2 = .signedWrapper body fromEp tie) ∨ LocalMove (e.controlMove ev) := by
  obtain ⟨now, ev⟩ := ev
  cases ev with
  | resetSession => exact .inl rfl
  | signedWrapper body fromEp tie => exact .inr (.inl ⟨body, fromEp, tie, rfl⟩)
  | setCryptoKey key => exact .inr (.inr (.inr (.inl rfl)))
  | addCryptoKey key =>
    simp only [controlMove]
    split
    · exact .inr (.inr (.inr (.inl rfl)))
    exact .inr (.inr (.inl rfl))
  | prepareJoin key target body =>
    simp only [controlMove]
    split
    · exact .inr (.inr (.inl rfl))
    split
    · exact .inr (.inr (.inl rfl))
    exact .inr (.inr (signMove_local ..))
  | sendControlPacket dest tag body pick =>
    simp only [controlMove]
    split
    · split
      · exact .inr (.inr (.inr (.inr ⟨_, _, _, _, rfl⟩)))
      · exact .inr (.inr (.inl rfl))
    · exact .inr (.inr (.inl rfl))
  | sendCtrlSignedTo dest tag body => exact .inr (.inr (signMove_local ..))
  | enqueueCtrl dest tag body => exact .inr (.inr (signMove_local ..))
  | punch task dest tag =>
    simp only [controlMove]
    split
    · exact .inr (.inr (signMove_local ..))
    exact .inr (.inr (.inl rfl))
  | _ => exact .inr (.inr (.inl rfl))

theorem resetSession_of_controlMove (h : e.controlMove ev = .reset) : ev.2 = .resetSession := by
  obtain ⟨now, ev⟩ := ev
  rcases controlMove_cases e (now, ev) with hr | ⟨body, fromEp, tie, rfl⟩ | hl | hl | ⟨_, _, _, _, hl⟩
  · exact hr
  · cases h
  all_goals rw [hl] at h; cases h

theorem signedWrapper_of_controlMove {keys : List AeadKey} {srcKey : UInt64}
    (h : e.controlMove ev = .deliver keys srcKey body now tie) :
    ∃ fromEp, ev = (now, .signedWrapper body fromEp tie) ∧ srcAddrKey fromEp = srcKey := by
  obtain ⟨now', ev⟩ := ev
  rcases controlMove_cases e (now', ev) with hr | ⟨body', fromEp, tie', rfl⟩ | hl | hl | ⟨_, _, _, _, hl⟩
  · obtain rfl : ev = .resetSession := hr
    cases h
  · cases h
    exact ⟨fromEp, rfl, rfl⟩
  all_goals rw [hl] at h; cases h

def controlOutput : Output → Option ControlOutput
  | .sealControl aead counter plaintext => some (.sealed aead counter plaintext)
  | .dispatchControl tag body _ => some (.dispatched tag body)
  | _ => none

section
variable (P : Primitives)

theorem filterMap_sealControlOutput {call : Option (ControlPlaneAead × Nat)} {tag : Tag} :
    (sealControlOutput call tag body).filterMap controlOutput = controlSealedOutput call tag body := by
  cases call <;> rfl

theorem filterMap_sealDataOutput_control (call : Option (DataPlaneAead × Nat)) (payload : Bytes) :
    (sealDataOutput call payload).filterMap controlOutput = [] := by
  cases call <;> rfl

theorem buildSignedOrPlain_control (cached : Bool) (e : Engine) (key : Option AeadKey) (dest : SocketAddr) (tag : Tag)
    (body : Bytes) : (buildSignedOrPlain P cached e key dest tag body).1.control =
    (e.control.step P (signMove cached key tag body)).1 ∧
    (buildSignedOrPlain P cached e key dest tag body).2.filterMap controlOutput =
    (e.control.step P (signMove cached key tag body)).2 := by
  unfold buildSignedOrPlain signMove
  split
  · exact ⟨rfl, rfl⟩
  cases key with
  | none => exact ⟨rfl, rfl⟩
  | some key =>
    refine ⟨rfl, ?_⟩
    dsimp only
    rw [List.filterMap_append, filterMap_sealControlOutput]
    exact List.append_nil _

theorem prepareJoin_control {key : Key} {target : Option SocketAddr} :
    (e.prepareJoin P key target body now).1.control =
    (e.control.step P (e.controlMove (now, .prepareJoin key target body))).1 ∧
    (e.prepareJoin P key target body now).2.filterMap controlOutput =
    (e.control.step P (e.controlMove (now, .prepareJoin key target body))).2 := by
  simp only [prepareJoin, controlMove]
  split
  · exact ⟨rfl, rfl⟩
  cases target with
  | none => exact ⟨rfl, rfl⟩
  -- the punch is a signalling frame, so only the join is sealed
  | some target => exact buildSignedOrPlain_control P false (e.joinKey key now) _ target pktJoin body

theorem sendMenc_control : (e.sendMenc P dest payload).1.control =
    e.control ∧ (e.sendMenc P dest payload).2.filterMap controlOutput = [] := by
  unfold sendMenc
  split
  · exact ⟨rfl, rfl⟩
  split
  · exact ⟨rfl, rfl⟩
  split
  · exact ⟨rfl, rfl⟩
  refine ⟨rfl, ?_⟩
  have hsend : ∀ o : Option Bytes, (o.map (Output.send dest)).toList.filterMap controlOutput = [] := by
    intro o; cases o <;> rfl
  rw [List.filterMap_append, hsend, List.append_nil]
  exact filterMap_sealDataOutput_control ..

theorem handleEncrypted_control :
    (e.handleEncrypted P body fromEp).1.control = e.control ∧ (e.handleEncrypted P body fromEp).2.filterMap
    controlOutput = [] := by
  unfold handleEncrypted
  split
  · exact ⟨rfl, rfl⟩
  split
  · exact ⟨rfl, rfl⟩
  split
  · exact ⟨rfl, rfl⟩
  refine ⟨rfl, ?_⟩
  dsimp only
  unfold mdatOutput
  split <;> rfl

theorem step_control (e : Engine) (ev : Instant × Event) : (e.step P ev).1.control =
    (e.control.step P (e.controlMove ev)).1 ∧ (e.step P ev).2.filterMap controlOutput =
    (e.control.step P (e.controlMove ev)).2 := by
  obtain ⟨now, ev⟩ := ev
  cases ev with
  | setCryptoKey key => exact ⟨rfl, rfl⟩
  | addCryptoKey key =>
    simp only [step, addCryptoKey, controlMove]
    split <;> exact ⟨rfl, rfl⟩
  | bindPeerKey peer key => exact ⟨rfl, rfl⟩
  | prepareJoin key target body => exact prepareJoin_control P
  | resetSession => exact ⟨rfl, rfl⟩
  | setIdentity myVip nodeId pre epoch order =>
    simp only [step, setIdentity, routesRemoved_eq]
    split <;> exact ⟨rfl, rfl⟩
  | applyLocalVipChange newVip pick =>
    simp only [step, applyLocalVipChange]
    split
    · exact ⟨rfl, rfl⟩
    split <;> exact ⟨rfl, rfl⟩
  | peerRouteRemoved vip =>
    simp only [step, onPeerRouteRemoved_eq]
    exact ⟨rfl, rfl⟩
  | leave nodeId vip pick =>
    simp only [step, leave, onPeerRouteRemoved_eq]
    split <;> exact ⟨rfl, rfl⟩
  | vipFight loser vip =>
    simp only [step, vipFight, onPeerRouteRemoved_eq]
    split <;> exact ⟨rfl, rfl⟩
  | staleEvict staleMark staleAge order =>
    simp only [step, staleEvict, routesRemoved_eq]
    exact ⟨rfl, rfl⟩
  | updateRoute vip ep nodeId order =>
    simp only [step, updateRoute]
    split <;> exact ⟨rfl, rfl⟩
  | touchRoutingEndpoint fromEp => exact ⟨rfl, rfl⟩
  | flushLastSeenPending => exact ⟨rfl, rfl⟩
  | encryptTo destVip payload => exact ⟨rfl, filterMap_sealDataOutput_control ..⟩
  | sendMenc dest payload => exact sendMenc_control P
  | encrypted body fromEp => exact handleEncrypted_control P
  | signedWrapper body fromEp tie =>
    simp only [step, handleSignedWrapper, controlMove, ControlCrypto.step]
    split <;> rename_i h <;> rw [h] <;> exact ⟨rfl, rfl⟩
  | sendControlPacket dest tag body pick =>
    simp only [step, sendControlPacket, controlMove]
    split
    · cases e.signingKey dest pick with
      | some key =>
        refine ⟨rfl, ?_⟩
        dsimp only
        rw [List.filterMap_append, filterMap_sealControlOutput]
        split <;> exact List.append_nil _
      | none =>
        dsimp only
        split <;> exact ⟨rfl, rfl⟩
    · exact ⟨rfl, rfl⟩
  | sendCtrlSignedTo dest tag body => exact buildSignedOrPlain_control ..
  | enqueueCtrl dest tag body => exact buildSignedOrPlain_control ..
  | readStateView => exact ⟨rfl, rfl⟩
  | punch task dest tag =>
    simp only [step, punch, controlMove]
    cases e.snapshots[task]? with
    | some snap => exact buildSignedOrPlain_control ..
    | none => exact ⟨rfl, rfl⟩

theorem mem_handleSignedWrapper {out : Output} (h : out ∈ (e.handleSignedWrapper P body fromEp now tie).2) : ∃ tag q,
    out = .dispatchControl tag q fromEp := by
  unfold handleSignedWrapper at h
  dsimp only at h
  split at h
  · cases h
  exact ⟨_, _, List.mem_singleton.mp h⟩

theorem simulates_control : Machine.Simulates (step P) (ControlCrypto.step P) control controlMove controlOutput where
  state e ev := (step_control P e ev).1
  emit e ev := (step_control P e ev).2

abbrev controlMoves (start : Start) (evs : List (Instant × Event)) : List ControlMove :=
  Machine.moves (step P) controlMove start.engine evs

end

end Engine

end ConnectUnit
