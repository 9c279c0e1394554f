import ConnectUnit.Membership

/-!
# Leaves and claims

Tombstones change only by the leaves that an event processes and by pruning.
-/

open Machine (run stateAt stateAt_succ)

namespace ConnectUnit

variable {tombs suppress : Marks} {n : String} {e : Nat} {now t : Instant} {l : LeaveItem} {body : Body LeaveJson}
variable {j : LeaveJson} {ev : Env × Event} {map : ClaimMap} {c : ClaimRecord} {m : Member} {a : Nat × Env × Event}
variable {vip : String} {fromEp : SocketAddr} {leaves : List LeaveItem} {tag : Tag}
variable {handle : Member → Member × List MemberOutput}

theorem claimVipValid_of_accept {P : Primitives} {key : Option Key}
    (h : acceptWireClaimVip P key vip = true) : claimVipValid vip = true := by
  unfold acceptWireClaimVip at h
  cases key with
  | none => exact h
  | some k =>
    cases hv : claimVipValid vip with
    | true => rfl
    | false => simp [vipInFloatunitSubnet, hv] at h

theorem leaveTombstoneBlocks_eq_true_iff : leaveTombstoneBlocks tombs n e now = true ↔ ∃ t, tombs.lookup n = some t ∧
    now < t.expiresAt ∧ e ≤ t.vipEpoch := by
  unfold leaveTombstoneBlocks
  rw [Option.any_eq_true]
  simp [Bool.and_eq_true]

theorem leaveTombstoneBlocks_mono {e' : Nat} {now' : Instant} (he : e' ≤ e) (hn : now' ≤ now)
    (h : leaveTombstoneBlocks tombs n e now = true) : leaveTombstoneBlocks tombs n e' now' = true := by
  obtain ⟨t, ht, hexp, hep⟩ := leaveTombstoneBlocks_eq_true_iff.mp h
  exact leaveTombstoneBlocks_eq_true_iff.mpr ⟨t, ht, lt_of_le_of_lt hn hexp, he.trans hep⟩

def LeaveItem.tombstone (now : Instant) (l : LeaveItem) : LeaveTombstone :=
  ⟨l.nodeId, l.vip, l.vipEpoch, now + leaveTombstoneTtl⟩

theorem pickFreeVip_free {base : String} {occupied : String → Bool} (h : pickFreeVip base occupied = some vip) :
    occupied vip = false := by
  unfold pickFreeVip at h
  split at h
  · have hfree := List.find?_some h
    simpa using hfree
  cases h

namespace Member

/-! ## What leaves the tombstones as they are -/

section
variable {P : Primitives} {W : WireText} (m : Member) (env : Env)

@[simp] theorem markMsmdSeen_core {id : String} : (m.markMsmdSeen id now).1.core = m.core := by
  unfold markMsmdSeen; split <;> rfl

@[simp] theorem markMsmdSeen_leaveTombs {id : String} : (m.markMsmdSeen id now).1.leaveTombs = m.leaveTombs := by
  unfold markMsmdSeen; split <;> rfl

@[simp] theorem markMsmdSeen_claimMap {id : String} : (m.markMsmdSeen id now).1.claimMap = m.claimMap := by
  unfold markMsmdSeen; split <;> rfl

/-- What a handler does to the core besides sending: a new address is one that has no route. -/
inductive CoreAct (P : Primitives) (env : Env) (e : Engine) : Engine → Prop
  | readdress {vip : String} (hfree : e.routing.table.lookup vip = none) :
    CoreAct P env e (e.applyLocalVipChange P vip env.pick env.now)
  | fight {loser vip : String} : CoreAct P env e (e.vipFight loser vip env.now)
  | route {vip : String} {ep : SocketAddr} {nodeId : Option String} {order : List String} :
    CoreAct P env e (e.updateRoute vip ep nodeId order env.now)
  | subnet {pre : Nat} : CoreAct P env e { e with subnetPrefix := pre }

structure Acts (P : Primitives) (env : Env) (m m' : Member) : Prop where
  core : Relation.ReflTransGen (CoreAct P env) m.core m'.core
  leaveTombs : m'.leaveTombs = m.leaveTombs

variable {m env}

theorem Acts.refl : Acts P env m m := ⟨.refl, rfl⟩

theorem Acts.trans {m' m'' : Member} (h : Acts P env m m') (h' : Acts P env m' m'') : Acts P env m m'' :=
  ⟨h.core.trans h'.core, h'.leaveTombs.trans h.leaveTombs⟩

theorem acts_foldl {α β : Type} {f : Member × β → α → Member × β} (hf : ∀ acc a, Acts P env acc.1 (f acc a).1)
    (l : List α) (acc : Member × β) : Acts P env acc.1 (l.foldl f acc).1 :=
  Machine.foldl_rel (R := fun a b => Acts P env a.1 b.1) (fun _ => .refl) (fun _ _ _ => .trans) hf l acc

theorem acts_tryLocalVipReroll : Acts P env m (m.tryLocalVipReroll P vip env).1 := by
  unfold tryLocalVipReroll
  dsimp only
  split
  · rename_i vip hpick
    have hocc := pickFreeVip_free hpick
    have hfree : m.core.routing.table.lookup vip = none := by
      cases hrow : m.core.routing.table.lookup vip with
      | none => rfl
      | some row => simp [occupiedVipsForReroll, hrow] at hocc
    have hchange : Acts P env m (m.applyLocalVipChange P vip env).1 := by
      unfold applyLocalVipChange
      split
      · exact .refl
      split
      · exact .refl
      exact ⟨.single (.readdress hfree), rfl⟩
    split <;> exact ⟨hchange.core, hchange.leaveTombs⟩
  · exact ⟨.refl, rfl⟩

variable (P env) in
theorem acts_settleLoser (pre : ClaimMap) (acc : Member × Bool) (loser : String) :
    Acts P env acc.1 (settleLoser P pre env acc loser).1 := by
  unfold settleLoser
  dsimp only
  split
  · split <;> exact acts_tryLocalVipReroll.trans ⟨.refl, rfl⟩
  split
  · exact ⟨.single .fight, rfl⟩
  exact .refl

theorem acts_fight {contested : String} {peers : List String} : Acts P env m (fight P contested env m peers).1 := by
  induction peers generalizing m with
  | nil => exact .refl
  | cons _ peers ih =>
    unfold fight
    dsimp only
    split
    · exact acts_tryLocalVipReroll
    exact acts_tryLocalVipReroll.trans ih

theorem acts_settle : Acts P env m (m.applyClaimSettleAndLocalFight P env).1 := by
  have hl := acts_foldl (acts_settleLoser P env m.claimMap) (settleDuplicateVips m.claimMap env.order).2
    ({ m with claimMap := (settleDuplicateVips m.claimMap env.order).1 }, false)
  unfold applyClaimSettleAndLocalFight
  dsimp only
  generalize (settleDuplicateVips m.claimMap env.order).2.foldl _ _ = r at hl ⊢
  have hm : Acts P env m r.1 := ⟨hl.core, hl.leaveTombs⟩
  split
  · exact (hm.trans acts_fight).trans ⟨.refl, rfl⟩
  exact hm.trans acts_fight

theorem acts_applyRemoteClaim : Acts P env m (m.applyRemoteClaim P W n vip e fromEp env) := by
  unfold applyRemoteClaim
  dsimp only
  split
  · exact .refl
  split
  · exact ⟨.refl, rfl⟩
  have hm : Acts P env m (m.merge ⟨n, vip, e, [W.addrToString fromEp]⟩ env).1 := ⟨.refl, rfl⟩
  split
  · exact (hm.trans acts_settle).trans ⟨.single .route, rfl⟩
  exact hm.trans acts_settle

theorem acts_broadcast : Acts P env m (broadcastClaimGossip W m env).1 := by
  unfold broadcastClaimGossip
  split
  · exact .refl
  dsimp only
  split <;> exact ⟨.refl, rfl⟩

theorem acts_flush : Acts P env m (flushPendingClaimGossip W m env).1 := by
  unfold flushPendingClaimGossip
  split
  · exact .refl
  refine .trans ?_ acts_broadcast
  exact ⟨.refl, rfl⟩

variable (P env) in
theorem acts_gossipClaim (acc : Member × List (ClaimRecord × MergeOutcome)) (c : ClaimRecord) :
    Acts P env acc.1 (gossipClaim P env acc c).1 := by
  unfold gossipClaim
  dsimp only
  split <;> exact ⟨.refl, rfl⟩

theorem acts_gossipRoute (j : GossipJson) (len : Nat) (fromEp : SocketAddr) (acc : Member × Bool)
    (p : ClaimRecord × MergeOutcome) : Acts P env acc.1 (gossipRoute W j len fromEp env acc p).1 := by
  unfold gossipRoute
  dsimp only
  split
  · exact .refl
  split
  · exact ⟨.single .route, rfl⟩
  exact .refl

theorem acts_gossipClaims {j : GossipJson} {claims : List ClaimRecord} :
    Acts P env m (m.gossipClaims P W j claims fromEp env).1 := by
  have hclaims := acts_foldl (acts_gossipClaim P env) claims (m, [])
  unfold gossipClaims
  dsimp only
  generalize claims.foldl (gossipClaim P env) (m, []) = merged at hclaims ⊢
  have hrouted := (hclaims.trans acts_settle).trans
    (acts_foldl (acts_gossipRoute (W := W) j claims.length fromEp) merged.2 _)
  split
  · refine .trans ?_ acts_broadcast
    exact ⟨hrouted.core, hrouted.leaveTombs⟩
  exact hrouted

theorem acts_handleJoin {body : Body JoinJson} : Acts P env m (m.handleJoin P W body fromEp env).1 := by
  have ha : Acts P env m (m.allowJoin fromEp env.now).1 := by
    unfold allowJoin
    dsimp only
    split <;> exact ⟨.refl, rfl⟩
  unfold handleJoin
  split
  · exact .refl
  dsimp only
  split
  · exact ha
  split
  · exact ha
  split
  · exact ha
  exact (ha.trans acts_applyRemoteClaim).trans acts_broadcast

theorem acts_handleJoinAck {body : Body JoinJson} : Acts P env m (m.handleJoinAck P W body fromEp env) := by
  unfold handleJoinAck
  split
  · exact .refl
  split
  · exact .refl
  rename_i j _
  have hc : Acts P env m (m.applyRemoteClaim P W j.nodeId j.vip j.vipEpoch fromEp env) := acts_applyRemoteClaim
  split
  · exact .refl
  dsimp only
  split
  · exact hc
  split
  · exact ⟨hc.core, hc.leaveTombs⟩
  exact hc.trans ⟨.single .subnet, rfl⟩

theorem acts_presenceTick : Acts P env m (m.presenceTick P W env).1 := by
  have hr : Acts P env m (m.retryVipFightIfDue P env) := by
    unfold retryVipFightIfDue
    split
    · exact .refl
    split
    · exact .refl
    refine .trans ?_ acts_settle
    exact ⟨.refl, rfl⟩
  unfold presenceTick
  split
  · exact .refl
  exact hr.trans acts_flush

end

/-! ## Processed leaves -/

section
variable (P : Primitives) (m : Member)

def acceptsLeave (env : Env) (l : LeaveItem) : Bool := l.nodeId ≠ "" && m.acceptWireClaimVip P l.vip env

def acceptedLeave (body : Body LeaveJson) (env : Env) : Option LeaveJson :=
  if body.len > 4096 then none
  else body.json.filter fun j => j.eventId ≠ "" && j.eventId ∉ m.msmdSeen && m.acceptsLeave P env j.toLeaveItem

def processedLeaves (ev : Env × Event) : List LeaveItem :=
  match ev.2 with
  | .claimGossip body _ true =>
    if body.len > m.msynBodyMax then [] else ((body.json.bind (·.leaves)).getD []).filter (m.acceptsLeave P ev.1)
  | .leave body _ true => ((m.acceptedLeave P body ev.1).map (·.toLeaveItem)).toList
  | .broadcastLeave msg => [msg.toLeaveItem].filter (m.acceptsLeave P ev.1)
  | _ => []

def lastLeave (ev : Env × Event) (n : String) : Option LeaveItem :=
  ((m.processedLeaves P ev).filter (·.nodeId = n)).getLast?

end

def installAll (now : Instant) (tombs : Marks) (leaves : List LeaveItem) : Marks :=
  leaves.foldl (fun tombs l => tombs.insert l.nodeId (l.tombstone now)) tombs

theorem installAll_lookup :
    (installAll now tombs leaves).lookup n = (((leaves.filter (·.nodeId = n)).getLast?).map (·.tombstone now)).or
    (tombs.lookup n) := by
  induction leaves using List.reverseRecOn with
  | nil => rfl
  | append_singleton leaves l ih =>
    have hf : installAll now tombs (leaves ++ [l]) =
        (installAll now tombs leaves).insert l.nodeId (l.tombstone now) := by
      simp [installAll]
    rw [hf, HashMap.lookup_insert_eq, List.filter_append]
    by_cases h : n = l.nodeId
    · simp [h]
    rw [if_neg h, ih]
    simp [Ne.symm h]

section
variable {P : Primitives} {W : WireText} (m : Member) (env : Env)

theorem installLeaveTombstone_eq (h : m.acceptsLeave P env l = true) (tombs : Marks) : installLeaveTombstone tombs
    l.nodeId l.vip l.vipEpoch env.now leaveTombstoneTtl = tombs.insert l.nodeId (l.tombstone env.now) := by
  simp only [acceptsLeave, Bool.and_eq_true, decide_eq_true_eq] at h
  have hv := claimVipValid_of_accept h.2
  simp [installLeaveTombstone, installMark, h.1, hv, LeaveItem.tombstone]

theorem installLeave_eq : installLeave P env m l =
      { m with leaveTombs := installAll env.now m.leaveTombs ([l].filter (m.acceptsLeave P env)) } := by
  cases h : m.acceptsLeave P env l with
  | false =>
    have hn : (l.nodeId = "" || !m.acceptWireClaimVip P l.vip env) = true := by
      simp only [acceptsLeave, Bool.and_eq_false_iff, decide_eq_false_iff_not, not_not] at h
      simpa [Bool.or_eq_true] using h
    simp [installLeave, hn, h, installAll]
  | true =>
    have hn : ¬ (l.nodeId = "" || !m.acceptWireClaimVip P l.vip env) = true := by
      simp only [acceptsLeave, Bool.and_eq_true, decide_eq_true_eq] at h
      simp [h.1, h.2]
    rw [installLeave, if_neg hn, m.installLeaveTombstone_eq env h]
    simp [h, installAll]

theorem foldl_installLeave_eq : leaves.foldl (installLeave P env) m =
      { m with leaveTombs := installAll env.now m.leaveTombs (leaves.filter (m.acceptsLeave P env)) } := by
  induction leaves generalizing m with
  | nil => rfl
  | cons l leaves ih =>
    have hsplit : (l :: leaves).filter (m.acceptsLeave P env) =
        [l].filter (m.acceptsLeave P env) ++ leaves.filter (m.acceptsLeave P env) := by
      rw [← List.filter_append]; rfl
    rw [List.foldl_cons, ih, installLeave_eq, hsplit]
    simp only [installAll, List.foldl_append]
    rfl

theorem dispatch_authenticated : m.dispatch tag fromEp true env handle = handle m := by
  simp [dispatch, Engine.admitControl]

theorem dispatch_leaveTombs (h : ∀ m, (handle m).1.leaveTombs = m.leaveTombs) {auth : Bool} :
    (m.dispatch tag fromEp auth env handle).1.leaveTombs = m.leaveTombs := by
  unfold dispatch
  dsimp only
  split
  · exact h _
  rfl

theorem handleClaimGossipBody_leaveTombs {body : Body GossipJson} :
    (m.handleClaimGossipBody P W body fromEp env).1.leaveTombs = installAll env.now m.leaveTombs
    (m.processedLeaves P (env, .claimGossip body fromEp true)) := by
  unfold handleClaimGossipBody processedLeaves
  dsimp only
  split
  · rfl
  cases hj : body.json with
  | none => rfl
  | some j =>
    dsimp only
    rw [foldl_installLeave_eq]
    cases hc : j.claims with
    | none => rfl
    | some claims => exact acts_gossipClaims.leaveTombs

theorem mem_acceptedLeave :
    m.acceptedLeave P body env = some j ↔ body.len ≤ 4096 ∧ body.json = some j ∧ j.eventId ≠ "" ∧
      j.eventId ∉ m.msmdSeen ∧ m.acceptsLeave P env j.toLeaveItem = true := by
  unfold acceptedLeave
  split
  · rename_i h
    exact ⟨fun h => (by cases h), fun hj => absurd hj.1 (by omega)⟩
  rename_i h
  rw [Option.filter_eq_some_iff]
  simp only [Bool.and_eq_true, decide_eq_true_eq]
  constructor
  · intro hj
    exact ⟨by omega, hj.1, hj.2.1.1, hj.2.1.2, hj.2.2⟩
  intro hj
  exact ⟨hj.2.1, ⟨hj.2.2.1, hj.2.2.2.1⟩, hj.2.2.2.2⟩

theorem handleLeave_of_some (h : m.acceptedLeave P body env = some j) : (m.handleLeave P body env).leaveTombs =
    m.leaveTombs.insert j.nodeId (j.tombstone env.now) ∧ (m.handleLeave P body env).claimMap = m.claimMap.erase
    j.nodeId := by
  obtain ⟨hlen, hjson, hid, hseen, hacc⟩ := (m.mem_acceptedLeave env).mp h
  have hmark : (m.markMsmdSeen j.eventId env.now).2 = true := by
    unfold markMsmdSeen; rw [if_neg hseen]
  have hacc' : (m.markMsmdSeen j.eventId env.now).1.acceptsLeave P env j.toLeaveItem = true := by
    simpa [acceptsLeave, acceptWireClaimVip] using hacc
  have hguard : ¬ (j.nodeId = "" || !(m.markMsmdSeen j.eventId env.now).1.acceptWireClaimVip P j.vip env) = true := by
    simp only [acceptsLeave, Bool.and_eq_true, decide_eq_true_eq] at hacc'
    simp [hacc'.1, hacc'.2]
  unfold handleLeave
  rw [if_neg (by omega), hjson]
  dsimp only
  rw [if_neg hid, hmark, if_neg (by simp), if_neg hguard, installLeave_eq]
  simp [hacc', installAll, removeClaim]

theorem handleLeave_of_none (h : m.acceptedLeave P body env = none) : (m.handleLeave P body env).leaveTombs =
    m.leaveTombs ∧ (m.handleLeave P body env).claimMap = m.claimMap ∧ (m.handleLeave P body env).core = m.core := by
  unfold handleLeave
  split
  · exact ⟨rfl, rfl, rfl⟩
  rename_i hlen
  cases hjson : body.json with
  | none => exact ⟨rfl, rfl, rfl⟩
  | some j =>
    dsimp only
    split
    · exact ⟨rfl, rfl, rfl⟩
    rename_i hid
    split
    · exact ⟨rfl, rfl, rfl⟩
    rename_i hmark
    have hseen : j.eventId ∉ m.msmdSeen := by
      intro hmem
      simp [markMsmdSeen, hmem] at hmark
    split
    · simp
    rename_i hguard
    refine absurd ((m.mem_acceptedLeave env).mpr ⟨by omega, hjson, hid, hseen, ?_⟩) (by rw [h]; simp)
    simpa [acceptsLeave, acceptWireClaimVip] using hguard

theorem broadcastLeave_leaveTombs (msg : LeaveJson) : (m.broadcastLeave P msg env).1.leaveTombs = installAll env.now
    m.leaveTombs ([msg.toLeaveItem].filter (m.acceptsLeave P env)) := by
  unfold broadcastLeave
  cases hv : m.acceptWireClaimVip P msg.vip env with
  | false => simp [acceptsLeave, hv, installAll]
  | true =>
    by_cases hn : msg.nodeId = ""
    · simp [acceptsLeave, hv, hn, installAll, installLeaveTombstone, installMark]
    have hacc : m.acceptsLeave P env msg.toLeaveItem = true := by simp [acceptsLeave, hv, hn]
    have heq := m.installLeaveTombstone_eq env hacc m.leaveTombs
    simpa [hacc, installAll] using heq

/-! ## Tombstones after an event -/

def Event.isSync : Event → Bool
  | .syncTick => true
  | _ => false

theorem syncTick_leaveTombs {m : Member} {env : Env} :
    (syncTick W m env).1.leaveTombs = pruneLeaveTombstones m.leaveTombs env.now :=
  (acts_flush.trans (acts_broadcast (P := .transparent))).leaveTombs

theorem step_leaveTombs (ev : Env × Event) : (step P W m ev).1.leaveTombs = if ev.2.isSync then pruneLeaveTombstones
    m.leaveTombs ev.1.now else installAll ev.1.now m.leaveTombs (m.processedLeaves P ev) := by
  obtain ⟨env, ev⟩ := ev
  cases ev with
  | join body fromEp auth => exact m.dispatch_leaveTombs env fun _ => acts_handleJoin.leaveTombs
  | joinAck body fromEp auth => exact m.dispatch_leaveTombs env fun _ => acts_handleJoinAck.leaveTombs
  | claimGossip body fromEp auth =>
    cases auth with
    | false => exact m.dispatch_leaveTombs env (fun m => rfl)
    | true =>
      simp only [step, dispatch_authenticated, if_true]
      exact m.handleClaimGossipBody_leaveTombs env
  | leave body fromEp auth =>
    cases auth with
    | false => exact m.dispatch_leaveTombs env (fun m => rfl)
    | true =>
      simp only [step, dispatch_authenticated, if_true, processedLeaves, Event.isSync]
      cases h : m.acceptedLeave P body env with
      | none => exact (m.handleLeave_of_none env h).1
      | some j => exact (m.handleLeave_of_some env h).1
  | broadcastLeave msg => exact m.broadcastLeave_leaveTombs env msg
  | triggerClaimGossip => exact (acts_broadcast (P := P)).leaveTombs
  | syncTick => exact syncTick_leaveTombs
  | presenceTick => exact acts_presenceTick.leaveTombs
  | staleEvict staleMark staleAge => rfl

theorem step_tombstone_of_leave (h : m.lastLeave P ev n = some l) :
    (step P W m ev).1.leaveTombs.lookup n = some (l.tombstone ev.1.now) := by
  have hsync : ev.2.isSync = false := by
    obtain ⟨env, ev⟩ := ev
    cases ev with
    | syncTick => simp [lastLeave, processedLeaves] at h
    | _ => rfl
  rw [step_leaveTombs, hsync, if_neg (by simp), installAll_lookup]
  unfold lastLeave at h
  rw [h]
  rfl

theorem step_tombstone_of_no_leave (h : m.lastLeave P ev n = none) : (step P W m ev).1.leaveTombs.lookup n =
    (m.leaveTombs.lookup n).filter fun t => !ev.2.isSync || t.expiresAt > ev.1.now := by
  rw [step_leaveTombs]
  cases hsync : ev.2.isSync with
  | true =>
    rw [if_pos rfl]
    exact HashMap.lookup_retain m.leaveTombs _ n
  | false =>
    rw [if_neg (by simp), installAll_lookup]
    unfold lastLeave at h
    rw [h]
    cases m.leaveTombs.lookup n <;> rfl

end

/-! ## A leave stays effective -/

/-- Every well-formed claim of the node up to the epoch is answered with its tombstone. -/
def Refuses (m : Member) (n : String) (e : Nat) (now : Instant) : Prop :=
  ∀ c : ClaimRecord, c.nodeId = n → c.vipEpoch ≤ e → claimVipValid c.vip = true →
    (mergeClaim m.claimMap c m.leaveTombs m.fightSuppress now).2.2 = .blockedByTombstone

theorem blocks_of_merge (h : (mergeClaim map c tombs suppress now).2.2 = .blockedByTombstone) : leaveTombstoneBlocks
    tombs c.nodeId c.vipEpoch now = true := by
  unfold mergeClaim at h
  split at h
  · cases h
  split at h
  · assumption
  split at h
  · cases h
  unfold mergeByEpoch at h
  dsimp only at h
  repeat' split at h
  all_goals cases h

theorem merge_blocked_iff (hn : c.nodeId ≠ "") (hv : claimVipValid c.vip = true) :
    (mergeClaim map c tombs suppress now).2.2 = .blockedByTombstone ↔
      leaveTombstoneBlocks tombs c.nodeId c.vipEpoch now = true := by
  refine ⟨blocks_of_merge, fun hb => ?_⟩
  have hguard : ¬ (c.nodeId = "" || !claimVipValid c.vip) = true := by simp [hn, hv]
  rw [mergeClaim, if_neg hguard, if_pos hb]

theorem refuses_iff (hn : n ≠ "") : m.Refuses n e now ↔ leaveTombstoneBlocks m.leaveTombs n e now = true := by
  constructor
  · intro h
    have hv : claimVipValid "10.0.0.1" = true := by decide
    exact (merge_blocked_iff hn hv).mp (h ⟨n, "10.0.0.1", e, []⟩ rfl le_rfl hv)
  intro h c hcn hce hv
  subst hcn
  exact (merge_blocked_iff hn hv).mpr (leaveTombstoneBlocks_mono hce le_rfl h)

section
variable {P : Primitives} {W : WireText} {s : Instant × Member} {as : List (Nat × Env × Event)}

/-- The event of an action, at the time it is taken. -/
def eventAt (s : Instant × Member) (a : Nat × Env × Event) : Env × Event := ({ a.2.1 with now := s.1 + a.1 }, a.2.2)

def Effective (n : String) (e : Nat) (t : Instant) (s : Instant × Member) : Prop :=
  t ≤ s.1 ∧ (s.1 < t + leaveTombstoneTtl →
    ∃ tomb, s.2.leaveTombs.lookup n = some tomb ∧ e ≤ tomb.vipEpoch ∧ t + leaveTombstoneTtl ≤ tomb.expiresAt)

theorem Effective.start (h : s.2.lastLeave P (eventAt s a) n = some l) : Effective n l.vipEpoch
    (timedStep P W s a).1.1 (timedStep P W s a).1 :=
  ⟨le_rfl, fun _ => ⟨_, step_tombstone_of_leave s.2 h, le_rfl, le_rfl⟩⟩

theorem Effective.step (h : Effective n e t s)
    (hnew : ∀ l, (timedStep P W s a).1.1 < t + leaveTombstoneTtl → s.2.lastLeave P (eventAt s a) n = some l →
      e ≤ l.vipEpoch) : Effective n e t (timedStep P W s a).1 := by
  have hclock : s.1 ≤ (timedStep P W s a).1.1 := Nat.le_add_right s.1 a.1
  refine ⟨h.1.trans hclock, fun hlt => ?_⟩
  cases hl : s.2.lastLeave P (eventAt s a) n with
  | some l =>
    have ht : t ≤ s.1 + a.1 := h.1.trans hclock
    exact ⟨_, step_tombstone_of_leave s.2 hl, hnew l hlt hl, Nat.add_le_add_right ht _⟩
  | none =>
    obtain ⟨tomb, htomb, he, hexp⟩ := h.2 (lt_of_le_of_lt hclock hlt)
    have hlive : s.1 + a.1 < tomb.expiresAt := lt_of_lt_of_le hlt hexp
    refine ⟨tomb, ?_, he, hexp⟩
    have hkeep := step_tombstone_of_no_leave (W := W) s.2 hl
    rw [htomb] at hkeep
    refine hkeep.trans ?_
    simp [eventAt, hlive]

theorem Effective.refuses (h : Effective n e t s) (hn : n ≠ "")
    (hs : s.1 ≤ now) (hnow : now < t + leaveTombstoneTtl) : s.2.Refuses n e now := by
  obtain ⟨tomb, htomb, he, hexp⟩ := h.2 (lt_of_le_of_lt hs hnow)
  exact (refuses_iff hn).mpr (leaveTombstoneBlocks_eq_true_iff.mpr ⟨tomb, htomb, lt_of_lt_of_le hnow hexp, he⟩)

theorem lastLeave_nodeId (h : m.lastLeave P ev n = some l) : l.nodeId = n ∧ n ≠ "" := by
  have hmem := List.mem_of_getLast? h
  rw [List.mem_filter, decide_eq_true_eq] at hmem
  obtain ⟨hmem, hn⟩ := hmem
  refine ⟨hn, ?_⟩
  have hacc : m.acceptsLeave P ev.1 l = true := by
    unfold processedLeaves at hmem
    split at hmem
    · split at hmem
      · cases hmem
      · exact (List.mem_filter.mp hmem).2
    · rw [Option.mem_toList, Option.map_eq_some_iff] at hmem
      obtain ⟨j, hj, rfl⟩ := hmem
      exact ((m.mem_acceptedLeave ev.1).mp hj).2.2.2.2
    · exact (List.mem_filter.mp hmem).2
    · cases hmem
  simp only [acceptsLeave, Bool.and_eq_true, decide_eq_true_eq] at hacc
  rw [← hn]
  exact hacc.1

/-- A leave that is processed stays effective for its time exactly if every leave of the node that is
processed within that time is at least as new. -/
theorem leave_effective_iff {i : Nat} (ha : as[i]? = some a) (hl : (stateAt (timedStep P W) s as i).2.lastLeave P
      (eventAt (stateAt (timedStep P W) s as i) a) n = some l) :
    (∀ j now, i < j → (stateAt (timedStep P W) s as j).1 ≤ now →
        now < (stateAt (timedStep P W) s as (i + 1)).1 + leaveTombstoneTtl →
        (stateAt (timedStep P W) s as j).2.Refuses n l.vipEpoch now) ↔
      ∀ j b l', i < j → as[j]? = some b → (stateAt (timedStep P W) s as (j + 1)).1 <
          (stateAt (timedStep P W) s as (i + 1)).1 + leaveTombstoneTtl →
        (stateAt (timedStep P W) s as j).2.lastLeave P
          (eventAt (stateAt (timedStep P W) s as j) b) n = some l' → l.vipEpoch ≤ l'.vipEpoch := by
  have hn := (lastLeave_nodeId hl).2
  have hi := stateAt_succ (timedStep P W) s as ha
  constructor
  · intro h j b l' hij hb hlt hl'
    -- right after the later leave the claim at the epoch of the first one is still to be refused
    have hj := stateAt_succ (timedStep P W) s as hb
    have href := h (j + 1) _ (by omega) le_rfl hlt
    rw [refuses_iff hn, leaveTombstoneBlocks_eq_true_iff, hj] at href
    obtain ⟨tomb, htomb, _, he⟩ := href
    rw [show (timedStep P W (stateAt (timedStep P W) s as j) b).1.2.leaveTombs.lookup n = some _ from
      step_tombstone_of_leave _ hl'] at htomb
    cases htomb
    exact he
  intro h j now hij hnow hlt
  have heff : Effective n l.vipEpoch (stateAt (timedStep P W) s as (i + 1)).1 (stateAt (timedStep P W) s as j) := by
    refine Machine.persists hij ?_ fun k b hik hkj hb hk => ?_
    · rw [hi]
      exact Effective.start hl
    refine hk.step fun l' hlt' => h k b l' hik hb ?_
    rw [stateAt_succ (timedStep P W) s as hb]
    exact hlt'
  exact heff.refuses hn hnow hlt

end

def mute : WireText := ⟨fun _ => "", fun _ => none, fun _ _ _ _ => 0⟩

def memberA : Member := Member.new (Engine.new (.new 0) 0x0A000001 "a" 24 0) 4096 0

def quietEnv : Env := ⟨0, 0, 0, .asStored⟩

def leaveOfB (epoch : Nat) (eventId : String) : LeaveJson := ⟨⟨"b", "10.0.0.2", epoch⟩, eventId⟩

/-- Two leaves of `b`, one second apart. -/
def twoLeaves (first second : Nat) : List (Nat × Env × Event) :=
  [(0, quietEnv, .broadcastLeave (leaveOfB first "x")),
   (secs 1, quietEnv, .leave ⟨80, some (leaveOfB second "y")⟩ (.v4 0xC0A80102 7777) true)]

theorem newer_leave_keeps_effect :
    (run (timedStep .transparent mute) (0, memberA) (twoLeaves 3 5)).2.Refuses "b" 3 (secs 299) := by
  have hleave := leave_effective_iff (P := .transparent) (W := mute) (s := (0, memberA)) (n := "b")
    (l := ⟨"b", "10.0.0.2", 3⟩) (show (twoLeaves 3 5)[0]? = some _ from rfl) (by decide)
  refine hleave.mpr ?_ 2 (secs 299) (by decide) (by decide) (by decide)
  intro j b l' hj hb _ hl'
  match j, hb with
  | 1, hb =>
    cases hb
    have hlast : some (leaveOfB 5 "y").toLeaveItem = some l' := by rw [← hl']; decide
    cases hlast
    decide

/-- An older leave that arrives later takes the place of the newer one. -/
theorem older_leave_lifts_block :
    (stateAt (timedStep .transparent mute) (0, memberA) (twoLeaves 5 3) 0).2.lastLeave .transparent
        (eventAt (0, memberA) (0, quietEnv, .broadcastLeave (leaveOfB 5 "x"))) "b" = some ⟨"b", "10.0.0.2", 5⟩ ∧
      ¬ (run (timedStep .transparent mute) (0, memberA) (twoLeaves 5 3)).2.Refuses "b" 5 (secs 1) := by
  refine ⟨by decide, fun h => ?_⟩
  exact absurd (h ⟨"b", "10.0.0.2", 5, []⟩ rfl le_rfl (by decide)) (by decide)

/-! ## A stale leave -/

section
variable {P : Primitives} {W : WireText} (m : Member) (env : Env)

/-- The checks that make the handler drop a leave message. -/
def LeaveDropped (P : Primitives) (m : Member) (body : Body LeaveJson) (j : LeaveJson) (env : Env) : Prop :=
  body.len > 4096 ∨ j.eventId = "" ∨ j.eventId ∈ m.msmdSeen ∨ j.nodeId = "" ∨ m.acceptWireClaimVip P j.vip env = false

theorem acceptedLeave_eq_none_iff (hj : body.json = some j) :
    m.acceptedLeave P body env = none ↔ LeaveDropped P m body j env := by
  have hsome : m.acceptedLeave P body env = some j ↔ _ := m.mem_acceptedLeave env
  simp only [acceptsLeave, Bool.and_eq_true, decide_eq_true_eq] at hsome
  constructor
  · intro h
    refine Classical.byContradiction fun hd => ?_
    simp only [LeaveDropped, not_or, Bool.not_eq_false] at hd
    obtain ⟨hlen, hid, hseen, hn, hv⟩ := hd
    have := hsome.mpr ⟨by omega, hj, hid, hseen, hn, hv⟩
    rw [h] at this
    cases this
  intro hd
  cases h : m.acceptedLeave P body env with
  | none => rfl
  | some j' =>
    obtain ⟨_, hj', _⟩ := (m.mem_acceptedLeave env).mp h
    have hjj : j' = j := by rw [hj] at hj'; cases hj'; rfl
    subst hjj
    obtain ⟨hlen, _, hid, hseen, hn, hv⟩ := hsome.mp h
    rcases hd with hd | hd | hd | hd | hd
    · omega
    · exact absurd hd hid
    · exact absurd hd hseen
    · exact absurd hd hn
    · rw [hv] at hd; cases hd

/-- An authenticated leave older than the claim of its node leaves the claim and its route alone exactly
if the handler drops it. -/
theorem stale_leave_keeps_claim_iff (hc : m.claimMap.lookup n = some c) (hj : body.json = some j) (hn : j.nodeId = n)
    (_he : j.vipEpoch < c.vipEpoch) (fromEp : SocketAddr) :
    (step P W m (env, .leave body fromEp true)).1.claimMap.lookup n = some c ∧
    (step P W m (env, .leave body fromEp true)).1.core.routing.table.lookup c.vip = m.core.routing.table.lookup c.vip
    ↔ LeaveDropped P m body j env := by
  simp only [step, dispatch_authenticated, if_true]
  rw [← m.acceptedLeave_eq_none_iff env hj]
  cases h : m.acceptedLeave P body env with
  | none =>
    obtain ⟨_, hclaims, hcore⟩ := m.handleLeave_of_none env h
    rw [hclaims, hcore]
    exact ⟨fun _ => rfl, fun _ => ⟨hc, rfl⟩⟩
  | some j' =>
    obtain ⟨_, hj', _⟩ := (m.mem_acceptedLeave env).mp h
    have hjj : j' = j := by rw [hj] at hj'; cases hj'; rfl
    subst hjj
    rw [(m.handleLeave_of_some env h).2, hn, HashMap.lookup_erase_eq, if_pos rfl]
    exact ⟨fun h => (by cases h.1), fun h => (by cases h)⟩

end

def knowsB : Member :=
  (step .transparent mute memberA (quietEnv, .claimGossip
    ⟨200, some ⟨"b", none, some [⟨"b", "10.0.0.2", 5, []⟩]⟩⟩ (.v4 0xC0A80102 7777) true)).1

theorem dropped_leave_keeps_claim : (step .transparent mute knowsB (quietEnv,
      .leave ⟨80, some (leaveOfB 3 "")⟩ (.v4 0xC0A80103 7777) true)).1.claimMap.lookup
      "b" = some ⟨"b", "10.0.0.2", 5, [""]⟩ :=
  ((stale_leave_keeps_claim_iff (P := .transparent) (W := mute) knowsB quietEnv
    (show knowsB.claimMap.lookup "b" = some _ by decide)
    rfl rfl (by decide) (.v4 0xC0A80103 7777)).mpr (.inr (.inl rfl))).1

/-- A leave of epoch 3 takes out the claim of epoch 5 and its route. -/
theorem stale_leave_evicts_claim :
    knowsB.claimMap.lookup "b" = some ⟨"b", "10.0.0.2", 5, [""]⟩ ∧ knowsB.core.routing.lookup "10.0.0.2" =
      some (.v4 0xC0A80102 7777) ∧
      (step .transparent mute knowsB (quietEnv,
        .leave ⟨80, some (leaveOfB 3 "x")⟩ (.v4 0xC0A80103 7777) true)).1.claimMap.lookup
        "b" = none ∧
      (step .transparent mute knowsB
        (quietEnv, .leave ⟨80, some (leaveOfB 3 "x")⟩ (.v4 0xC0A80103 7777) true)).1.core.routing.lookup "10.0.0.2" =
          none := by
  decide

end Member

end ConnectUnit
