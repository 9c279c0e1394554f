import ConnectUnit.GossipRank

/-!
# Fights for an address, seen by one member

What an event other than a leave does to a member whose claims of others have
some property: the claims keep it, and the member gives up its address only
if a smaller node claims it, for a free one and with the next epoch.
-/

open Option (bind_some)

namespace ConnectUnit

variable {r : Member × List MemberOutput} {c d : ClaimRecord} {now : Instant} {tag : Tag} {fromEp : SocketAddr}
variable {auth : Bool} {handle : Member → Member × List MemberOutput} {body : Body JoinJson} {n k : String}
variable {map : ClaimMap} {ev : Env × Event}

namespace Member

/-! ## Sound members -/

/-- The claims of other nodes have the property, and the local one, if present, is the current one. -/
structure Sound (q : String → String → Nat → Prop) (m : Member) : Prop where
  others : ∀ n c, n ≠ m.core.myNodeId → m.claimMap.lookup n = some c → c.nodeId = n ∧ q n c.vip c.vipEpoch
  own : ∀ c, m.claimMap.lookup m.core.myNodeId = some c →
    c.nodeId = m.core.myNodeId ∧ c.vip = m.core.myVip ∧ c.vipEpoch = m.core.vipEpoch

structure Calm (m m' : Member) : Prop where
  nodeId : m'.core.myNodeId = m.core.myNodeId
  vip : m'.core.myVip = m.core.myVip
  epoch : m'.core.vipEpoch = m.core.vipEpoch
  claims : ∀ n c, m'.claimMap.lookup n = some c → FromMap m.claimMap n c

structure Moves (q : String → String → Nat → Prop) (m m' : Member) : Prop where
  nodeId : m'.core.myNodeId = m.core.myNodeId
  sound : Sound q m'
  moved : m'.core.myVip = m.core.myVip ∧ m'.core.vipEpoch = m.core.vipEpoch ∨
    m'.core.myVip ≠ m.core.myVip ∧ (∃ n e, n < m.core.myNodeId ∧ q n m.core.myVip e) ∧
      m'.core.vipEpoch = min (m.core.vipEpoch + 1) (2 ^ 64 - 1)

def Speaks (q : String → String → Nat → Prop) (m : Member) (outs : List MemberOutput) : Prop :=
  ∀ o ∈ outs, ∃ dest body, o = .claimGossip dest body ∧ ∀ c ∈ body.claims,
    c.nodeId = m.core.myNodeId ∧ c.vip = m.core.myVip ∧ c.vipEpoch = m.core.vipEpoch ∨ q c.nodeId c.vip c.vipEpoch

section
variable {P : Primitives} {W : WireText} {env : Env} {q : String → String → Nat → Prop} {m m' m'' : Member}

theorem Sound.imp {q' : String → String → Nat → Prop} (h : Sound q m)
    (hq : ∀ n vip e, q n vip e → q' n vip e) : Sound q' m :=
  ⟨fun n c hn hc => (h.others n c hn hc).imp_right (hq _ _ _), h.own⟩

theorem calm_of_eq (hn : m'.core.myNodeId = m.core.myNodeId) (hv : m'.core.myVip = m.core.myVip)
    (he : m'.core.vipEpoch = m.core.vipEpoch) (hc : m'.claimMap = m.claimMap) : Calm m m' :=
  ⟨hn, hv, he, fun _ c h => ⟨c, hc ▸ h, rfl, rfl, rfl⟩⟩

theorem Calm.refl (m : Member) : Calm m m := calm_of_eq rfl rfl rfl rfl

theorem Calm.trans (h : Calm m m') (h' : Calm m' m'') : Calm m m'' := by
  refine ⟨h'.nodeId.trans h.nodeId, h'.vip.trans h.vip, h'.epoch.trans h.epoch, fun n c hc => ?_⟩
  obtain ⟨d, hd, hn, hv, he⟩ := h'.claims n c hc
  obtain ⟨d', hd', hn', hv', he'⟩ := h.claims n d hd
  exact ⟨d', hd', hn.trans hn', hv.trans hv', he.trans he'⟩

theorem SameClaims.calm (h : SameClaims m m') : Calm m m' := calm_of_eq h.nodeId h.vip h.epoch h.claims

theorem Announced.calm (h : Announced m r) : Calm m r.1 :=
  ⟨congrArg (·.myNodeId) h.core, congrArg (·.myVip) h.core, congrArg (·.vipEpoch) h.core, h.claims⟩

theorem Sound.calm (h : Sound q m) (hc : Calm m m') : Sound q m' := by
  refine ⟨fun n c hn hl => ?_, fun c hl => ?_⟩
  · obtain ⟨d, hd, hdn, hv, he⟩ := hc.claims n c hl
    rw [hdn, hv, he]
    exact h.others n d (hc.nodeId ▸ hn) hd
  rw [hc.nodeId] at hl ⊢
  obtain ⟨d, hd, hdn, hv, he⟩ := hc.claims _ c hl
  rw [hdn, hv, he, hc.vip, hc.epoch]
  exact h.own d hd

theorem Sound.moves (h : Sound q m) (hc : Calm m m') : Moves q m m' := ⟨hc.nodeId, h.calm hc, .inl ⟨hc.vip, hc.epoch⟩⟩

theorem Moves.calm (h : Moves q m m') (hc : Calm m' m'') : Moves q m m'' := by
  refine ⟨hc.nodeId.trans h.nodeId, h.sound.calm hc, ?_⟩
  rw [hc.vip, hc.epoch]
  exact h.moved

theorem Calm.moves (hc : Calm m m') (h : Moves q m' m'') : Moves q m m'' := by
  refine ⟨h.nodeId.trans hc.nodeId, h.sound, ?_⟩
  rw [← hc.vip, ← hc.epoch, ← hc.nodeId]
  exact h.moved

theorem Calm.speaks (hc : Calm m m') {outs : List MemberOutput} (h : Speaks q m outs) : Speaks q m' outs := by
  unfold Speaks
  rw [hc.nodeId, hc.vip, hc.epoch]
  exact h

theorem Sound.speaks (h : Sound q m) (ha : Announced m r) : Speaks q m r.2 := by
  intro o ho
  obtain ⟨dest, body, rfl, hclaims⟩ := ha.digest o ho
  refine ⟨dest, body, rfl, fun c hc => ?_⟩
  rcases hclaims c hc with rfl | ⟨n, d, hd, hn, hv, he⟩
  · exact .inl ⟨rfl, rfl, rfl⟩
  rw [hn, hv, he]
  by_cases hown : n = m.core.myNodeId
  · exact .inl (h.own d (hown ▸ hd))
  obtain ⟨hdn, hq⟩ := h.others n d hown hd
  exact .inr (hdn ▸ hq)

/-! ## Merging and settling -/

theorem MergeStep.sound {r : Member × MergeOutcome} (hs : MergeStep m c now r)
    (h : Sound q m) (hne : c.nodeId ≠ m.core.myNodeId) (hq : q c.nodeId c.vip c.vipEpoch) : Sound q r.1 := by
  have hinsert : ∀ d : ClaimRecord, d.nodeId = c.nodeId ∧ q c.nodeId d.vip d.vipEpoch →
      Sound q { m with claimMap := m.claimMap.insert c.nodeId d } := by
    refine fun d hd => ⟨fun n e hn hl => ?_, fun e hl => ?_⟩
    · dsimp only at hl
      rw [HashMap.lookup_insert_eq] at hl
      split at hl
      · rename_i he
        cases hl
        rw [he]
        exact hd
      · exact h.others n e hn hl
    dsimp only at hl
    rw [HashMap.lookup_insert_eq, if_neg (Ne.symm hne)] at hl
    exact h.own e hl
  cases hs with
  | ignored => exact h
  | renewed => exact ⟨h.others, h.own⟩
  | added => exact hinsert c ⟨rfl, hq⟩
  | newer => exact hinsert c ⟨rfl, hq⟩
  | hinted d hr => exact hinsert _ (h.others _ d hne hr)

theorem Beaten.rival (hb : m.Beaten) (h : Sound q m) : ∃ n e, n < m.core.myNodeId ∧ q n m.core.myVip e := by
  rcases hb with ⟨c, hc, k, d, hd, hv, hlt⟩ | ⟨k, c, hc, hne, hf⟩
  · have hq := (h.others k d hlt.ne hd).2
    rw [hv, (h.own c hc).2.1] at hq
    exact ⟨k, d.vipEpoch, hlt, hq⟩
  have hk : k ≠ m.core.myNodeId := fun he => hne (h.own c (he ▸ hc)).1
  obtain ⟨hn, hq⟩ := h.others k c hk hc
  simp only [shouldRerollForVipFight, localLosesVipConflict, nodeIdWins, Bool.and_eq_true, decide_eq_true_eq,
    Bool.not_eq_true', decide_eq_false_iff_not] at hf
  rw [hn] at hf
  rw [hf.1] at hq
  exact ⟨k, c.vipEpoch, lt_of_le_of_ne (not_lt.mp hf.2.1) hk, hq⟩

variable (P env) in
theorem Sound.settle (h : Sound q m) : Moves q m (m.applyClaimSettleAndLocalFight P env).1 := by
  rcases settle_outcome P env m with ⟨hb, hm⟩ | ⟨m', hk, he, -, -⟩
  · refine ⟨hm.nodeId, ⟨fun n c hn hc => ?_, fun c hc => ?_⟩, .inr ⟨hm.vip, hb.rival h, hm.epoch⟩⟩
    · rw [hm.nodeId] at hn
      exact h.others n c hn (hm.claims n c hn hc)
    · rw [hm.nodeId] at hc
      cases hm.own.symm.trans hc
      exact ⟨rfl, rfl, rfl⟩
  rw [he]
  refine ⟨hk.nodeId, ⟨fun n c hn hc => ?_, fun c hc => ?_⟩, .inl ⟨hk.vip, hk.epoch⟩⟩
  · rw [show ({ m' with pendingClaimGossip := _ } : Member).core.myNodeId = m.core.myNodeId from hk.nodeId] at hn
    exact h.others n c hn (hk.lookup hn hc).2
  have hown := hk.own
  dsimp only at hc ⊢
  rw [hk.nodeId] at hc
  rw [hk.nodeId, hk.vip, hk.epoch]
  rcases hown with ⟨-, ho⟩ | ho
  · exact h.own c (ho ▸ hc)
  cases ho.symm.trans hc
  exact ⟨rfl, rfl, rfl⟩

end

/-! ## What an event has a member learn -/

section
variable (P : Primitives) (W : WireText)
variable (m : Member)

def admitted (tag : Tag) (fromEp : SocketAddr) (authenticated : Bool) (env : Env) : Option Member :=
  let r := m.core.admitControl tag fromEp authenticated env.now
  if r.2 then some { m with core := r.1 } else none

def joinHeard (body : Body JoinJson) (fromEp : SocketAddr) (env : Env) : Option (Member × JoinJson) :=
  if m.core.myVip = "" || m.core.myNodeId = "" then none
  else
    let allowed := m.allowJoin fromEp env.now
    if !allowed.2 || body.len > 8192 then none
    else body.json.bind fun j =>
      if j.protoVer ≠ some wireProtocolVersion || j.nodeId = "" || j.nodeId.utf8ByteSize > 64 ||
          !allowed.1.acceptWireClaimVip P j.vip env then none
      else some (allowed.1, j)

def ackHeard (body : Body JoinJson) (fromEp : SocketAddr) (env : Env) : Option JoinJson :=
  if body.len > 8192 then none
  else body.json.bind fun j =>
    if j.protoVer ≠ some wireProtocolVersion || !m.jackMpjaBodyValid P j fromEp env then none else some j

def JoinJson.remoteClaim (j : JoinJson) (fromEp : SocketAddr) : ClaimRecord :=
  ⟨j.nodeId, j.vip, j.vipEpoch, [W.addrToString fromEp]⟩

def taken (c : ClaimRecord) (env : Env) : Option (Member × List (ClaimRecord × MergeOutcome)) :=
  if c.nodeId = "" || !m.acceptWireClaimVip P c.vip env then none
  else
    let r := m.merge c env
    if r.2.isBlocked then none else some (r.1, [(c, r.2)])

def digestTaken (body : Body GossipJson) (env : Env) : Option (Member × List (ClaimRecord × MergeOutcome)) :=
  if body.len > m.msynBodyMax then none
  else body.json.bind fun j => j.claims.map fun claims =>
    claims.foldl (gossipClaim P env) ((j.leaves.getD []).foldl (installLeave P env) m, [])

def learned (ev : Env × Event) : Option (Member × List (ClaimRecord × MergeOutcome)) :=
  let env := ev.1
  match ev.2 with
  | .join body fromEp auth => (m.admitted pktJoin fromEp auth env).bind fun m =>
      (m.joinHeard P body fromEp env).bind fun p => p.1.taken P (JoinJson.remoteClaim W p.2 fromEp) env
  | .joinAck body fromEp auth => (m.admitted pktJack fromEp auth env).bind fun m =>
      (m.ackHeard P body fromEp env).bind fun j => m.taken P (JoinJson.remoteClaim W j fromEp) env
  | .claimGossip body fromEp auth => (m.admitted pktClg fromEp auth env).bind fun m =>
      if auth then m.digestTaken P body env else none
  | _ => none

end

section
variable {P : Primitives} {W : WireText} {env : Env} {q : String → String → Nat → Prop} {m m' m'' : Member}

def Honest (q : String → String → Nat → Prop) (m : Member) : Event → Prop
  | .join body _ _ => ∀ j, body.json = some j → j.nodeId ≠ m.core.myNodeId ∧ q j.nodeId j.vip j.vipEpoch
  | .joinAck body _ _ => ∀ j, body.json = some j → j.nodeId ≠ m.core.myNodeId ∧ q j.nodeId j.vip j.vipEpoch
  | .claimGossip body _ _ => ∀ c ∈ body.claims, c.nodeId ≠ m.core.myNodeId → q c.nodeId c.vip c.vipEpoch
  | .leave .. => False
  | .broadcastLeave _ => False
  | _ => True

theorem dispatch_cases : m.admitted tag fromEp auth env = none ∧ Calm m
    (m.dispatch tag fromEp auth env handle).1 ∧ (m.dispatch tag fromEp auth env handle).2 = [] ∨ ∃ m', m.admitted tag
    fromEp auth env = some m' ∧ Calm m m' ∧ m'.core.cryptoKeys = m.core.cryptoKeys ∧ m.dispatch tag fromEp auth env
    handle = handle m' := by
  unfold admitted Member.dispatch
  dsimp only
  by_cases h : (m.core.admitControl tag fromEp auth env.now).2 = true
  · rw [if_pos h, if_pos h]
    exact .inr ⟨_, rfl, calm_of_eq rfl rfl rfl rfl, rfl, rfl⟩
  rw [if_neg h, if_neg h]
  exact .inl ⟨rfl, calm_of_eq rfl rfl rfl rfl, rfl⟩

theorem allowJoin_same (m : Member) (fromEp : SocketAddr) (now : Instant) :
    (m.allowJoin fromEp now).1.core = m.core ∧ (m.allowJoin fromEp now).1.claimMap = m.claimMap := by
  unfold allowJoin
  dsimp only
  split <;> exact ⟨rfl, rfl⟩

theorem joinHeard_cases : m.joinHeard P body fromEp env = none ∧ Calm m (m.handleJoin P W body fromEp env).1 ∧
    (m.handleJoin P W body fromEp env).2 = [] ∨ ∃ m' j, m.joinHeard P body fromEp env = some (m', j) ∧ body.json =
    some j ∧ m'.core = m.core ∧ m'.claimMap = m.claimMap ∧ m.handleJoin P W body fromEp env = broadcastClaimGossip W
    (m'.applyRemoteClaim P W j.nodeId j.vip j.vipEpoch fromEp env) env := by
  obtain ⟨hcore, hclaims⟩ := allowJoin_same m fromEp env.now
  have hcalm : Calm m (m.allowJoin fromEp env.now).1 := by
    refine calm_of_eq ?_ ?_ ?_ hclaims <;> rw [hcore]
  unfold joinHeard Member.handleJoin
  split
  · exact .inl ⟨rfl, Calm.refl m, rfl⟩
  dsimp only
  split
  · exact .inl ⟨rfl, hcalm, rfl⟩
  cases body.json with
  | none => exact .inl ⟨rfl, hcalm, rfl⟩
  | some j =>
    rw [bind_some]
    dsimp only
    split
    · exact .inl ⟨rfl, hcalm, rfl⟩
    exact .inr ⟨_, j, rfl, rfl, hcore, hclaims, rfl⟩

theorem ackHeard_cases
    : m.ackHeard P body fromEp env = none ∧ m.handleJoinAck P W body fromEp env = m ∨ ∃ j, m.ackHeard P
    body fromEp env = some j ∧ body.json = some j ∧ Calm (m.applyRemoteClaim P W j.nodeId j.vip j.vipEpoch fromEp env)
    (m.handleJoinAck P W body fromEp env) := by
  unfold ackHeard Member.handleJoinAck
  split
  · exact .inl ⟨rfl, rfl⟩
  cases body.json with
  | none => exact .inl ⟨rfl, rfl⟩
  | some j =>
    rw [bind_some]
    dsimp only
    split
    · exact .inl ⟨rfl, rfl⟩
    refine .inr ⟨j, rfl, rfl, ?_⟩
    split
    · exact Calm.refl _
    split
    · exact calm_of_eq rfl rfl rfl rfl
    exact calm_of_eq rfl rfl rfl rfl

theorem merge_unblocked (h : (m.merge c env).2.isBlocked = false) :
    ∃ d, (m.merge c env).1.claimMap.lookup c.nodeId = some d ∧ c.vipEpoch ≤ d.vipEpoch := by
  have hinsert : ∀ d : ClaimRecord, (m.claimMap.insert c.nodeId d).lookup c.nodeId = some d := fun d =>
    (HashMap.lookup_insert_eq ..).trans (if_pos rfl)
  unfold Member.merge mergeClaim at h ⊢
  split at h
  · cases h
  rename_i hvalid
  rw [if_neg hvalid]
  split at h
  · cases h
  rename_i htomb
  rw [if_neg htomb]
  split at h
  · cases h
  rename_i hfight
  rw [if_neg hfight]
  dsimp only
  unfold mergeByEpoch
  split
  · exact ⟨c, hinsert c, le_rfl⟩
  rename_i d hd
  split
  · exact ⟨c, hinsert c, le_rfl⟩
  rename_i hle
  split
  · split
    · exact ⟨_, hinsert _, Nat.not_lt.mp hle⟩
    · exact ⟨d, hd, Nat.not_lt.mp hle⟩
  · exact ⟨d, hd, Nat.not_lt.mp hle⟩

theorem MergeStep.newer_or_same {r : Member × MergeOutcome}
    (hs : MergeStep m c now r) (hd : m.claimMap.lookup n = some d) : ∃ d',
    r.1.claimMap.lookup n = some d' ∧ d.vipEpoch ≤ d'.vipEpoch := by
  have hinsert : ∀ e : ClaimRecord, (n = c.nodeId → d.vipEpoch ≤ e.vipEpoch) →
      ∃ d', (m.claimMap.insert c.nodeId e).lookup n = some d' ∧ d.vipEpoch ≤ d'.vipEpoch := by
    intro e he
    rw [HashMap.lookup_insert_eq]
    split
    · exact ⟨e, rfl, he (by assumption)⟩
    exact ⟨d, hd, le_rfl⟩
  cases hs with
  | ignored => exact ⟨d, hd, le_rfl⟩
  | renewed => exact ⟨d, hd, le_rfl⟩
  | added hr => exact hinsert c fun hn => by rw [hn, hr] at hd; cases hd
  | newer e hr he =>
    refine hinsert c fun hn => ?_
    rw [hn, hr] at hd
    cases hd
    exact he.le
  | hinted e hr =>
    refine hinsert _ fun hn => ?_
    rw [hn, hr] at hd
    cases hd
    exact le_rfl

structure Took (P : Primitives) (q : String → String → Nat → Prop) (env : Env) (m : Member)
    (r : Member × List (ClaimRecord × MergeOutcome)) : Prop where
  nodeId : r.1.core.myNodeId = m.core.myNodeId
  vip : r.1.core.myVip = m.core.myVip
  epoch : r.1.core.vipEpoch = m.core.vipEpoch
  keys : r.1.core.cryptoKeys = m.core.cryptoKeys
  sound : Sound q r.1
  news : ∀ p ∈ r.2, q p.1.nodeId p.1.vip p.1.vipEpoch ∧ p.1.nodeId ≠ m.core.myNodeId ∧
    m.acceptWireClaimVip P p.1.vip env = true ∧
    ∃ d, r.1.claimMap.lookup p.1.nodeId = some d ∧ p.1.vipEpoch ≤ d.vipEpoch

theorem Took.of_calm {r : Member × List (ClaimRecord × MergeOutcome)} (h : Took P q env m' r) (hc : Calm m m')
    (hk : m'.core.cryptoKeys = m.core.cryptoKeys) : Took P q env m r := by
  refine ⟨h.nodeId.trans hc.nodeId, h.vip.trans hc.vip, h.epoch.trans hc.epoch, h.keys.trans hk, h.sound,
    fun p hp => ?_⟩
  obtain ⟨hq, hne, hacc, hd⟩ := h.news p hp
  refine ⟨hq, hc.nodeId ▸ hne, ?_, hd⟩
  unfold Member.acceptWireClaimVip Engine.acceptWireClaimVip Engine.unitNetworkKey at hacc ⊢
  rw [← hk]
  exact hacc

variable (P env) in
theorem taken_cases (h : Sound q m) (hne : c.nodeId ≠ m.core.myNodeId) (hq : q c.nodeId c.vip c.vipEpoch) :
    m.taken P c env = none ∧ ((c.nodeId = "" || !m.acceptWireClaimVip P c.vip env) = true ∨
        (m.merge c env).2.isBlocked = true ∧ Calm m (m.merge c env).1) ∨
      ∃ r, m.taken P c env = some r ∧ Took P q env m r ∧ r.1 = (m.merge c env).1 ∧
        (c.nodeId = "" || !m.acceptWireClaimVip P c.vip env) = false ∧ (m.merge c env).2.isBlocked = false := by
  unfold taken
  by_cases hbad : (c.nodeId = "" || !m.acceptWireClaimVip P c.vip env) = true
  · rw [if_pos hbad]
    exact .inl ⟨rfl, .inl hbad⟩
  rw [if_neg hbad]
  have hgood := hbad
  rw [Bool.or_eq_true, not_or, decide_eq_true_eq, Bool.not_eq_true', Bool.not_eq_false] at hgood
  have hm : MergeStep m c env.now (m.merge c env) := merge_mergeStep hgood.1 (claimVipValid_of_accept hgood.2)
  obtain ⟨hcore, -, -, -, hsame⟩ := hm.frame
  dsimp only
  by_cases hb : (m.merge c env).2.isBlocked = true
  · rw [if_pos hb]
    have hna : (m.merge c env).2 ≠ .accepted := fun he => by
      rw [he] at hb
      cases hb
    refine .inl ⟨rfl, .inr ⟨hb, calm_of_eq ?_ ?_ ?_ (hsame hna)⟩⟩ <;> rw [hcore]
  rw [if_neg hb]
  refine .inr ⟨_, rfl, ⟨?_, ?_, ?_, ?_, hm.sound h hne hq, fun p hp => ?_⟩, rfl, Bool.eq_false_iff.mpr hbad,
    Bool.eq_false_iff.mpr hb⟩
  · rw [hcore]
  · rw [hcore]
  · rw [hcore]
  · rw [hcore]
  · cases List.mem_singleton.mp hp
    exact ⟨hq, hne, hgood.2, merge_unblocked (Bool.eq_false_iff.mpr hb)⟩

theorem applyRemoteClaim_cases {j : JoinJson} (h : Sound q m) (hne : j.nodeId ≠ m.core.myNodeId)
    (hq : q j.nodeId j.vip j.vipEpoch) : m.taken P (JoinJson.remoteClaim W j fromEp) env = none
    ∧ Calm m (m.applyRemoteClaim P W j.nodeId j.vip j.vipEpoch fromEp env) ∨ ∃ r, m.taken P
    (JoinJson.remoteClaim W j fromEp) env = some r ∧ Took P q env m r ∧ Calm
    (r.1.applyClaimSettleAndLocalFight P env).1 (m.applyRemoteClaim P W j.nodeId j.vip j.vipEpoch fromEp env) := by
  have heq : m.applyRemoteClaim P W j.nodeId j.vip j.vipEpoch fromEp env =
      let c := JoinJson.remoteClaim W j fromEp
      if c.nodeId = "" || !m.acceptWireClaimVip P c.vip env then m
      else if (m.merge c env).2.isBlocked then (m.merge c env).1
      else
        let m := ((m.merge c env).1.applyClaimSettleAndLocalFight P env).1
        if claimStillLive m.claimMap c.nodeId c.vip c.vipEpoch && c.vip ≠ m.core.myVip then
          m.updateRoute c.vip fromEp c.nodeId env
        else m := by
    unfold Member.applyRemoteClaim JoinJson.remoteClaim
    rfl
  rw [heq]
  dsimp only
  rcases taken_cases P env (c := JoinJson.remoteClaim W j fromEp) h hne hq with
    ⟨hnone, hbad | ⟨hb, hcalm⟩⟩ | ⟨r, hr, htook, hmerge, hgood, hb⟩
  · rw [if_pos hbad]
    exact .inl ⟨hnone, Calm.refl m⟩
  · rw [if_pos hb]
    refine .inl ⟨hnone, ?_⟩
    split
    · exact Calm.refl m
    exact hcalm
  rw [if_neg (Bool.eq_false_iff.mp hgood), if_neg (Bool.eq_false_iff.mp hb), ← hmerge]
  refine .inr ⟨r, hr, htook, ?_⟩
  split
  · obtain ⟨hn, hv, he⟩ := updateRoute_core (m := (r.1.applyClaimSettleAndLocalFight P env).1)
      (JoinJson.remoteClaim W j fromEp).vip fromEp (JoinJson.remoteClaim W j fromEp).nodeId env
    exact calm_of_eq hn hv he rfl
  · exact Calm.refl _

/-! ## Digests -/

theorem took_gossipClaim {acc : Member × List (ClaimRecord × MergeOutcome)} (h : Took P q env m acc)
    (hc : c.nodeId ≠ m.core.myNodeId → q c.nodeId c.vip c.vipEpoch) : Took P q env m (gossipClaim P env acc c) := by
  unfold gossipClaim
  dsimp only
  split
  · exact h
  rename_i hgood
  rw [Bool.or_eq_true, Bool.or_eq_true, not_or, not_or, decide_eq_true_eq, decide_eq_true_eq, h.nodeId,
    Bool.not_eq_true', Bool.not_eq_false] at hgood
  obtain ⟨⟨hn, hacc⟩, hne⟩ := hgood
  have hm : MergeStep acc.1 c env.now (acc.1.merge c env) := merge_mergeStep hn (claimVipValid_of_accept hacc)
  obtain ⟨hcore, -, -, -, -⟩ := hm.frame
  have hold : ∀ p ∈ acc.2, _ := fun p hp => h.news p hp
  refine ⟨?_, ?_, ?_, ?_, hm.sound h.sound (h.nodeId ▸ hne) (hc hne), fun p hp => ?_⟩
  · rw [hcore, h.nodeId]
  · rw [hcore, h.vip]
  · rw [hcore, h.epoch]
  · rw [hcore, h.keys]
  · have hmem : p ∈ acc.2 ∨ (acc.1.merge c env).2.isBlocked = false ∧ p = (c, (acc.1.merge c env).2) := by
      dsimp only at hp
      split at hp
      · exact .inl hp
      rename_i hb
      exact (List.mem_append.mp hp).imp_right fun hp => ⟨Bool.eq_false_iff.mpr hb, List.mem_singleton.mp hp⟩
    rcases hmem with hp | ⟨hb, rfl⟩
    · obtain ⟨hq, hpne, hpacc, d, hd, hle⟩ := hold p hp
      obtain ⟨d', hd', hle'⟩ := hm.newer_or_same hd
      exact ⟨hq, hpne, hpacc, d', hd', hle.trans hle'⟩
    refine ⟨hc hne, hne, ?_, merge_unblocked hb⟩
    unfold Member.acceptWireClaimVip Engine.acceptWireClaimVip Engine.unitNetworkKey at hacc ⊢
    rw [← h.keys]
    exact hacc

variable (P env) in
theorem took_foldl (h : Sound q m) {claims : List ClaimRecord}
    (hc : ∀ c ∈ claims, c.nodeId ≠ m.core.myNodeId → q c.nodeId c.vip c.vipEpoch) :
    Took P q env m (claims.foldl (gossipClaim P env) (m, [])) := by
  have hstart : Took P q env m (m, []) := ⟨rfl, rfl, rfl, rfl, h, nofun⟩
  exact List.foldlRecOn claims _ hstart fun acc h c hmem => took_gossipClaim h (hc c hmem)

theorem digestTaken_cases (h : Sound q m) {body : Body GossipJson}
    (hc : ∀ c ∈ body.claims, c.nodeId ≠ m.core.myNodeId → q c.nodeId c.vip c.vipEpoch) :
    m.digestTaken P body env = none ∧ Calm m (m.handleClaimGossipBody P W body fromEp env).1 ∧
        (m.handleClaimGossipBody P W body fromEp env).2 = [] ∨
      ∃ r m', m.digestTaken P body env = some r ∧ Took P q env m r ∧
        Calm (r.1.applyClaimSettleAndLocalFight P env).1 m' ∧
        (m.handleClaimGossipBody P W body fromEp env = broadcastClaimGossip W m' env ∨
          m.handleClaimGossipBody P W body fromEp env = (m', [])) := by
  unfold digestTaken Member.handleClaimGossipBody
  split
  · exact .inl ⟨rfl, Calm.refl m, rfl⟩
  cases hj : body.json with
  | none => exact .inl ⟨rfl, Calm.refl m, rfl⟩
  | some j =>
    rw [bind_some]
    dsimp only
    rw [foldl_installLeave_eq]
    cases hcl : j.claims with
    | none => exact .inl ⟨rfl, calm_of_eq rfl rfl rfl rfl, rfl⟩
    | some claims =>
      have hbody : body.claims = claims := by
        unfold Body.claims
        rw [hj, bind_some, hcl, Option.getD_some]
      rw [hbody] at hc
      have hcalm : ∀ tombs, Calm m { m with leaveTombs := tombs } := fun _ => calm_of_eq rfl rfl rfl rfl
      rw [Option.map_some]
      dsimp only
      generalize installAll env.now m.leaveTombs _ = tombs
      have htook := took_foldl P env (m := { m with leaveTombs := tombs }) (h.calm (hcalm tombs)) hc
      unfold Member.gossipClaims
      dsimp only
      generalize claims.foldl (gossipClaim P env) _ = merged at htook ⊢
      refine .inr ⟨merged, ?_⟩
      obtain ⟨hroutes, -⟩ := gossipRoutes_spec W env j claims.length fromEp merged.2
        (merged.1.applyClaimSettleAndLocalFight P env)
      generalize merged.2.foldl _ _ = routed at hroutes ⊢
      split
      · refine ⟨_, rfl, htook.of_calm (hcalm tombs) rfl, ?_, .inl rfl⟩
        exact hroutes.calm.trans (calm_of_eq rfl rfl rfl rfl)
      exact ⟨_, rfl, htook.of_calm (hcalm tombs) rfl, hroutes.calm, .inr rfl⟩

/-! ## Events -/

structure Turn (q : String → String → Nat → Prop) (m : Member) (r : Member × List MemberOutput) : Prop where
  moves : Moves q m r.1
  speaks : Speaks q r.1 r.2

theorem Moves.silent (h : Moves q m m') : Turn q m (m', []) := ⟨h, nofun⟩

variable (W env) in
theorem Moves.broadcast (h : Moves q m m') : Turn q m (broadcastClaimGossip W m' env) := by
  have ha := broadcast_announced W env m'
  exact ⟨h.calm ha.calm, ha.calm.speaks (h.sound.speaks ha)⟩

variable (W env) in
theorem Moves.flush (h : Moves q m m') : Turn q m (flushPendingClaimGossip W m' env) := by
  unfold flushPendingClaimGossip
  split
  · exact h.silent
  exact (h.calm (calm_of_eq rfl rfl rfl rfl : Calm m' { m' with pendingClaimGossip := false })).broadcast W env

theorem Calm.turn (hc : Calm m m') (h : Turn q m' r) : Turn q m r := ⟨hc.moves h.moves, h.speaks⟩

theorem Sound.silent (h : Sound q m) (hc : Calm m r.1) (hr : r.2 = []) : Turn q m r := by
  refine ⟨h.moves hc, fun o ho => ?_⟩
  rw [hr] at ho
  cases ho

theorem Took.settle {r : Member × List (ClaimRecord × MergeOutcome)} (h : Took P q env m r) :
    Moves q m (r.1.applyClaimSettleAndLocalFight P env).1 := by
  have hm := h.sound.settle P env
  refine ⟨hm.nodeId.trans h.nodeId, hm.sound, ?_⟩
  rw [← h.vip, ← h.epoch, ← h.nodeId]
  exact hm.moved

theorem foldl_forgetRoute {rt : RoutingTable} {vips : List String}
    (h : (vips.foldl (forgetRoute rt) map).lookup n = some c) : map.lookup n = some c := by
  refine List.foldlRecOn (motive := fun map' : ClaimMap => map'.lookup n = some c → _) vips _ id
    (fun map' hprev vip _ hstep => hprev ?_) h
  unfold forgetRoute at hstep
  split at hstep
  · split at hstep
    · unfold removeClaim at hstep
      rw [HashMap.lookup_erase_eq] at hstep
      split at hstep
      · cases hstep
      exact hstep
    unfold removeClaimsForVip at hstep
    rw [HashMap.lookup_retain, Option.filter_eq_some_iff] at hstep
    exact hstep.1
  exact hstep

theorem routesRemoved_core (e : Engine) (vips : List String) : (e.routesRemoved vips).myNodeId = e.myNodeId ∧
    (e.routesRemoved vips).myVip = e.myVip ∧ (e.routesRemoved vips).vipEpoch = e.vipEpoch := by
  refine List.foldlRecOn (motive := fun t : Engine => t.myNodeId = e.myNodeId ∧ t.myVip = e.myVip ∧
    t.vipEpoch = e.vipEpoch) vips _ ⟨rfl, rfl, rfl⟩ fun t h vip _ => ?_
  unfold Engine.onPeerRouteRemoved
  split <;> exact h

theorem staleEvict_calm {staleMark staleAge : Nat} : Calm m (m.staleEvict staleMark staleAge env) := by
  unfold Member.staleEvict Engine.staleEvict
  obtain ⟨hn, hv, he⟩ := routesRemoved_core { m.core with routing := _ } _
  exact ⟨hn, hv, he, fun n c hc => ⟨c, foldl_forgetRoute hc, rfl, rfl, rfl⟩⟩

/-! ## What an event leads to -/

def Outcome (P : Primitives) (W : WireText) (q : String → String → Nat → Prop) (env : Env) (m : Member)
    (learned : Option (Member × List (ClaimRecord × MergeOutcome))) (r : Member × List MemberOutput) : Prop :=
  learned = none ∧ Turn q m r ∨
    ∃ l m', learned = some l ∧ Took P q env m l ∧ Calm (l.1.applyClaimSettleAndLocalFight P env).1 m' ∧
      (r = broadcastClaimGossip W m' env ∨ r = (m', []))

theorem Outcome.of_calm {learned : Option (Member × List (ClaimRecord × MergeOutcome))}
    (h : Outcome P W q env m' learned r) (hc : Calm m m')
    (hkeys : m'.core.cryptoKeys = m.core.cryptoKeys) : Outcome P W q env m learned r := by
  rcases h with ⟨hnone, hturn⟩ | ⟨l, n, hsome, htook, hrest⟩
  · exact .inl ⟨hnone, hc.turn hturn⟩
  exact .inr ⟨l, n, hsome, htook.of_calm hc hkeys, hrest⟩

theorem Outcome.turn {learned : Option (Member × List (ClaimRecord × MergeOutcome))}
    (h : Outcome P W q env m learned r) : Turn q m r := by
  rcases h with ⟨_, hturn⟩ | ⟨l, n, _, htook, hc, rfl | rfl⟩
  · exact hturn
  · exact (htook.settle.calm hc).broadcast W env
  exact (htook.settle.calm hc).silent

theorem Sound.heard_dispatch (h : Sound q m) {learn : Member → Option (Member × List (ClaimRecord × MergeOutcome))}
    (hhandle : ∀ m', Calm m m' → Outcome P W q env m' (learn m') (handle m')) :
    Outcome P W q env m ((m.admitted tag fromEp auth env).bind learn) (m.dispatch tag fromEp auth env handle) := by
  rcases dispatch_cases with ⟨hnone, hc, hr⟩ | ⟨m', hadm, hc, hkeys, he⟩
  · rw [hnone]
    exact .inl ⟨rfl, h.silent hc hr⟩
  rw [hadm, he, bind_some]
  exact (hhandle m' hc).of_calm hc hkeys

section
variable (h : Sound q m) (hev : ∀ j, body.json = some j → j.nodeId ≠ m.core.myNodeId ∧ q j.nodeId j.vip j.vipEpoch)
include h hev

theorem Sound.heard_join : Outcome P W q env m
    ((m.joinHeard P body fromEp env).bind fun p => p.1.taken P (JoinJson.remoteClaim W p.2 fromEp) env)
    (m.handleJoin P W body fromEp env) := by
  rcases joinHeard_cases with ⟨hnone, hc, hr⟩ | ⟨m', j, hheard, hj, hcore, hclaims, he⟩
  · rw [hnone]
    exact .inl ⟨rfl, h.silent hc hr⟩
  have hc : Calm m m' := by
    refine calm_of_eq ?_ ?_ ?_ hclaims <;> rw [hcore]
  obtain ⟨hne, hq⟩ := hev j hj
  rw [hheard, he, bind_some]
  refine Outcome.of_calm ?_ hc (by rw [hcore])
  rcases applyRemoteClaim_cases (h.calm hc) (hc.nodeId ▸ hne) hq with ⟨hnone, hcalm⟩ | ⟨r, hr, htook, hcalm⟩
  · exact .inl ⟨hnone, ((h.calm hc).moves hcalm).broadcast W env⟩
  exact .inr ⟨r, _, hr, htook, hcalm, .inl rfl⟩

theorem Sound.heard_joinAck :
    Outcome P W q env m ((m.ackHeard P body fromEp env).bind fun j => m.taken P (JoinJson.remoteClaim W j fromEp) env)
    (m.handleJoinAck P W body fromEp env, []) := by
  rcases ackHeard_cases with ⟨hnone, he⟩ | ⟨j, hheard, hj, hc⟩
  · rw [hnone, he]
    exact .inl ⟨rfl, h.silent (Calm.refl m) rfl⟩
  obtain ⟨hne, hq⟩ := hev j hj
  rw [hheard, bind_some]
  rcases applyRemoteClaim_cases h hne hq with ⟨hnone, hcalm⟩ | ⟨r, hr, htook, hcalm⟩
  · exact .inl ⟨hnone, (h.moves (hcalm.trans hc)).silent⟩
  exact .inr ⟨r, _, hr, htook, hcalm.trans hc, .inr rfl⟩

end

theorem Sound.heard_claimGossip (h : Sound q m) {body : Body GossipJson}
    (hev : ∀ c ∈ body.claims, c.nodeId ≠ m.core.myNodeId → q c.nodeId c.vip c.vipEpoch)
    : Outcome P W q env m (if auth then m.digestTaken P body env else none)
    (if auth then m.handleClaimGossipBody P W body fromEp env else (m, [])) := by
  split
  · rcases digestTaken_cases h hev with ⟨hnone, hc, hr⟩ | htaken
    · exact .inl ⟨hnone, h.silent hc hr⟩
    · exact .inr htaken
  · exact .inl ⟨rfl, h.silent (Calm.refl m) rfl⟩

variable (P W) in
theorem Sound.heard_step (h : Sound q m) (hev : Honest q m ev.2) :
    Outcome P W q ev.1 m (m.learned P W ev) (m.step P W ev) := by
  obtain ⟨env, ev⟩ := ev
  cases ev with
  | join body fromEp auth =>
    refine h.heard_dispatch fun m' hc => (h.calm hc).heard_join ?_
    rw [hc.nodeId]
    exact hev
  | joinAck body fromEp auth =>
    refine h.heard_dispatch fun m' hc => (h.calm hc).heard_joinAck ?_
    rw [hc.nodeId]
    exact hev
  | claimGossip body fromEp auth =>
    refine h.heard_dispatch fun m' hc => (h.calm hc).heard_claimGossip ?_
    rw [hc.nodeId]
    exact hev
  | leave body fromEp auth => exact hev.elim
  | broadcastLeave msg => exact hev.elim
  | triggerClaimGossip => exact .inl ⟨rfl, (h.moves (Calm.refl m)).broadcast W env⟩
  | syncTick =>
    have hpruned : Calm m { m with
        leaveTombs := pruneLeaveTombstones m.leaveTombs env.now
        fightSuppress := pruneFightSuppress m.fightSuppress env.now } := calm_of_eq rfl rfl rfl rfl
    have hflush := (h.moves hpruned).flush W env
    have hsent := hflush.moves.broadcast W env
    refine .inl ⟨rfl, hsent.moves, fun o ho => ?_⟩
    rcases List.mem_append.mp ho with ho | ho
    · exact ((broadcast_announced W env _).calm.speaks hflush.speaks) o ho
    exact hsent.speaks o ho
  | presenceTick =>
    refine .inl ⟨rfl, ?_⟩
    unfold Member.step Member.presenceTick
    dsimp only
    split
    · exact (h.moves (Calm.refl m)).silent
    refine Moves.flush W env ?_
    unfold retryVipFightIfDue
    split
    · exact h.moves (Calm.refl m)
    split
    · exact h.moves (Calm.refl m)
    have hc : Calm m { m with vipRerollRetryAfter := none } := calm_of_eq rfl rfl rfl rfl
    exact hc.moves ((h.calm hc).settle P env)
  | staleEvict staleMark staleAge =>
    exact .inl ⟨rfl, (h.moves staleEvict_calm).silent⟩

variable (P W) in
theorem Sound.step (h : Sound q m) (ev : Env × Event) (hev : Honest q m ev.2) : Turn q m (m.step P W ev) :=
  (h.heard_step P W hev).turn

theorem learned_spec (h : Sound q m) (hev : Honest q m ev.2)
    {r : Member × List (ClaimRecord × MergeOutcome)} (hl : m.learned P W ev = some r) : Took P q ev.1 m r ∧
    (m.step P W ev).1.core.myVip = (r.1.applyClaimSettleAndLocalFight P ev.1).1.core.myVip := by
  rcases h.heard_step P W hev with ⟨hnone, _⟩ | ⟨l, m', hsome, htook, hc, he⟩
  · cases hnone.symm.trans hl
  cases hsome.symm.trans hl
  refine ⟨htook, ?_⟩
  rcases he with he | he
  · rw [he]
    exact (broadcast_announced W ev.1 m').calm.vip.trans hc.vip
  rw [he]
  exact hc.vip

/-! ## Who stays -/

theorem pickFreeVip_none_mono {base : String} {occupied occupied' : String → Bool}
    (hsub : ∀ vip, occupied' vip = true → occupied vip = true) (h : pickFreeVip base occupied' = none) :
    pickFreeVip base occupied = none := by
  unfold pickFreeVip at h ⊢
  split
  · rename_i hoctets
    rw [hoctets] at h
    dsimp only at h ⊢
    rw [List.find?_eq_none] at h ⊢
    intro vip hvip hfree
    refine h vip hvip ?_
    rw [Bool.not_eq_true', Bool.eq_false_iff] at hfree ⊢
    exact fun ho => hfree (hsub vip ho)
  · rfl

theorem Kept.exhausted {pre : ClaimMap} {ls : List String} (hk : Kept pre env ls m m') (h : m'.Exhausted P env) :
    m.Exhausted P env := by
  unfold Exhausted at h ⊢
  have hbase : m'.core.unitNetworkKey env.pick = m.core.unitNetworkKey env.pick := by
    unfold Engine.unitNetworkKey
    rw [hk.keys]
  rw [hbase, hk.vip] at h
  refine pickFreeVip_none_mono (fun vip hv => ?_) h
  unfold occupiedVipsForReroll at hv ⊢
  rw [hk.vip] at hv
  simp only [Bool.or_eq_true] at hv ⊢
  rcases hv with ((hv | hv) | hv) | hv
  · obtain ⟨e, he, hev⟩ := List.any_eq_true.mp hv
    have hlookup :=
      (HashMap.lookup_eq_some_iff m'.claimMap).mpr (show (⟨e.1, e.2⟩ : Sigma _) ∈ m'.claimMap.entries from he)
    have hfrom : m.claimMap.lookup e.1 = some e.2 ∨ e.2.vip = m.core.myVip := by
      by_cases hn : e.1 = m.core.myNodeId
      · rw [hn] at hlookup ⊢
        rcases hk.own with ⟨-, ho⟩ | ho
        · exact .inl (ho ▸ hlookup)
        exact .inr (congrArg (·.vip) (Option.some.inj (hlookup.symm.trans ho)))
      · exact .inl (hk.lookup hn hlookup).2
    rcases hfrom with hm | hown
    · exact .inl (.inl (.inl (List.any_eq_true.mpr ⟨e, (HashMap.lookup_eq_some_iff m.claimMap).mp hm, hev⟩)))
    exact .inl (.inr (decide_eq_true ((of_decide_eq_true hev).symm.trans hown)))
  · exact .inl (.inl (.inr (hk.rows vip hv)))
  · exact .inl (.inr hv)
  · exact .inr hv

theorem exists_winner (hd : map.lookup k = some d) (order : IterOrder)
    : ∃ w c, w ≤ k ∧ map.lookup w = some c ∧ c.vip = d.vip ∧ w ∉ (settleDuplicateVips map order).2 := by
  have hk : k ∈ claimants map d.vip := mem_claimants.mpr ⟨d, hd, rfl⟩
  have hsorted : (claimants map d.vip).Pairwise (· ≤ ·) := List.pairwise_insertionSort _ _
  have hmem : ∀ n, n ∈ claimants map d.vip ↔ _ := fun n => mem_claimants
  cases hcl : claimants map d.vip with
  | nil =>
    rw [hcl] at hk
    cases hk
  | cons w ws =>
    rw [hcl] at hk hsorted hmem
    have hmin : ∀ n ∈ w :: ws, w ≤ n := fun n hn => (List.mem_cons.mp hn).elim (fun h => h ▸ le_rfl)
      ((List.pairwise_cons.mp hsorted).1 n)
    obtain ⟨c, hc, hv⟩ := (hmem w).mp List.mem_cons_self
    refine ⟨w, c, hmin k hk, hc, hv, fun hlose => ?_⟩
    obtain ⟨c', hc', n, e, he, hev, hlt⟩ := mem_losers_iff.mp hlose
    cases hc.symm.trans hc'
    exact absurd (hmin n ((hmem n).mpr ⟨e, he, hev.trans hv⟩)) (not_le.mpr hlt)

theorem Sound.exhausted_of_stays (h : Sound q m) (hlt : k < m.core.myNodeId)
    (hd : m.claimMap.lookup k = some d) (hv : d.vip = m.core.myVip)
    (hacc : m.acceptWireClaimVip P m.core.myVip env = true)
    (hstay : (m.applyClaimSettleAndLocalFight P env).1.core.myVip = m.core.myVip) : m.Exhausted P env := by
  rcases settle_outcome P env m with ⟨-, hm⟩ | ⟨m', hk, -, -, hfail⟩
  · exact absurd hstay hm.vip
  obtain ⟨w, c, hw, hc, hcv, hnl⟩ := exists_winner hd env.order
  have hwlt := lt_of_le_of_lt hw hlt
  have hc' : m'.claimMap.lookup w = some c := by
    rw [hk.claims w hwlt.ne, if_neg hnl]
    exact hc
  have hfight : w ∈ m'.fighters := by
    unfold fighters
    rw [hk.nodeId, hk.vip]
    refine List.mem_map.mpr ⟨c, List.mem_filter.mpr ⟨?_, ?_⟩, (h.others w c hwlt.ne hc).1⟩
    · exact List.mem_map.mpr ⟨⟨w, c⟩, (HashMap.lookup_eq_some_iff m'.claimMap).mp hc', rfl⟩
    simp [shouldRerollForVipFight, localLosesVipConflict, nodeIdWins, (h.others w c hwlt.ne hc).1, hcv.trans hv,
      hwlt.ne, hwlt.ne', not_lt.mpr hwlt.le]
  refine hk.exhausted (hfail (List.ne_nil_of_mem hfight) ?_)
  unfold Member.acceptWireClaimVip Engine.acceptWireClaimVip Engine.unitNetworkKey at hacc ⊢
  rw [hk.keys, hk.vip]
  exact hacc

end

end Member

end ConnectUnit
