import ConnectUnit.MembershipSound

/-!
# Claims and tombstones

A predicate on claims that the merge of an unblocked claim keeps is kept by every handler, as long as the local claim
has it too.
-/

open Machine (Each run stateAt)

namespace ConnectUnit

variable {n : String} {c : ClaimRecord} {tombs : Marks} {now : Instant} {acc : Member × Bool} {m' m : Member}
variable {body : Body JoinJson} {handle : Member → Member × List MemberOutput}

/-! ## Claims with a property -/

def AllClaims (q : String → String → Nat → Prop) (map : ClaimMap) : Prop :=
  ∀ n c, map.lookup n = some c → q n c.vip c.vipEpoch

namespace AllClaims

variable {q : String → String → Nat → Prop} {map : ClaimMap}

section
variable (h : AllClaims q map)
include h

theorem imp {q' : String → String → Nat → Prop} (hq : ∀ n vip e, q n vip e → q' n vip e) :
    AllClaims q' map := fun n c hc => hq _ _ _ (h n c hc)

theorem insert (hc : q n c.vip c.vipEpoch) : AllClaims q (map.insert n c) := by
  intro n' c' hl
  rw [HashMap.lookup_insert_eq] at hl
  split at hl
  · rename_i hn
    cases hl
    rw [hn]; exact hc
  · exact h n' c' hl

theorem erase : AllClaims q (map.erase n) := by
  intro n' c hl
  rw [HashMap.lookup_erase_eq] at hl
  split at hl
  · cases hl
  exact h n' c hl

theorem foldl_erase {ns : List String} : AllClaims q (ns.foldl removeClaim map) :=
  List.foldlRecOn ns _ h fun _ hm _ _ => hm.erase

theorem retain {p : String → ClaimRecord → Bool} : AllClaims q (map.retain p) := by
  intro n c hl
  rw [HashMap.lookup_retain, Option.filter_eq_some_iff] at hl
  exact h n c hl.1

theorem mapVals {f : ClaimRecord → ClaimRecord}
    (hf : ∀ c, (f c).vip = c.vip ∧ (f c).vipEpoch = c.vipEpoch) : AllClaims q (map.mapVals f) := by
  intro n c hl
  rw [HashMap.lookup_mapVals, Option.map_eq_some_iff] at hl
  obtain ⟨c', hc', rfl⟩ := hl
  rw [(hf c').1, (hf c').2]
  exact h n c' hc'

end

theorem mergeByEpoch (h : AllClaims q map) (hc : q c.nodeId c.vip c.vipEpoch) :
    AllClaims q (mergeByEpoch map c).1 := by
  unfold ConnectUnit.mergeByEpoch
  split
  · exact h.insert hc
  rename_i existing hex
  split
  · exact h.insert hc
  split
  · split
    · exact h.insert (h c.nodeId existing hex)
    · exact h
  · exact h

theorem mergeClaim (h : AllClaims q map) {suppress : Marks}
    (hc : leaveTombstoneBlocks tombs c.nodeId c.vipEpoch now = false → q c.nodeId c.vip c.vipEpoch) :
    AllClaims q (mergeClaim map c tombs suppress now).1 := by
  unfold ConnectUnit.mergeClaim
  split
  · exact h
  split
  · exact h
  rename_i hb
  split
  · exact h
  exact h.mergeByEpoch (hc (by simpa using hb))

theorem settle (h : AllClaims q map) (order : IterOrder) : AllClaims q (settleDuplicateVips map order).1 :=
  h.foldl_erase

end AllClaims

theorem mem_losers {map : ClaimMap} {order : IterOrder} (h : n ∈ (settleDuplicateVips map order).2) :
    ∃ c, map.lookup n = some c := by
  simp only [settleDuplicateVips, List.mem_flatMap] at h
  obtain ⟨vip, _, hn⟩ := h
  have hmem := List.mem_of_mem_drop hn
  rw [claimants, List.mem_insertionSort, List.mem_map] at hmem
  obtain ⟨e, he, rfl⟩ := hmem
  exact ⟨e.2, (HashMap.lookup_eq_some_iff map).mpr (List.mem_filter.mp he).1⟩

def JoinJson.claim (j : JoinJson) : ClaimRecord := ⟨j.nodeId, j.vip, j.vipEpoch, []⟩

namespace Member

section
variable (e : Engine) (loser vip : String) (now : Instant)

theorem vipFight_core : (e.vipFight loser vip now).myNodeId = e.myNodeId ∧
    (e.vipFight loser vip now).myVip = e.myVip ∧ (e.vipFight loser vip now).vipEpoch = e.vipEpoch := by
  unfold Engine.vipFight
  split
  · exact ⟨rfl, rfl, rfl⟩
  unfold Engine.onPeerRouteRemoved
  split <;> exact ⟨rfl, rfl, rfl⟩

end

/-! ## The local claim -/

def epoch (m : Member) : Nat := min m.core.vipEpoch (2 ^ 64 - 1)

structure OwnToo (q : String → String → Nat → Prop) (m : Member) : Prop where
  own : ∀ vip e, m.epoch ≤ e → q m.core.myNodeId vip e
  claims : AllClaims q m.claimMap

structure NoContest (q : String → String → Nat → Prop) (m : Member) : Prop where
  away : ∀ n vip e, q n vip e → n ≠ m.core.myNodeId ∧ vip ≠ m.core.myVip
  claims : AllClaims q m.claimMap

section
variable {q : String → String → Nat → Prop} {m : Member}

theorem OwnToo.insertOwn (h : OwnToo q m) :
    OwnToo q { m with claimMap := m.claimMap.insert m.core.myNodeId m.ownClaim } :=
  ⟨h.own, h.claims.insert (h.own _ _ (Nat.min_le_left _ _))⟩

variable (P : Primitives) (env : Env)

theorem OwnToo.applyLocalVipChange (h : OwnToo q m) (vip : String) :
    OwnToo q (m.applyLocalVipChange P vip env).1 := by
  have hcore : ∀ c : Engine, c.myNodeId = m.core.myNodeId → m.epoch ≤ min c.vipEpoch (2 ^ 64 - 1) →
      OwnToo q { m with core := c } := by
    intro c hn he
    refine ⟨fun v e hve => ?_, h.claims⟩
    rw [show ({ m with core := c } : Member).core.myNodeId = m.core.myNodeId from hn]
    exact h.own v e (he.trans hve)
  unfold Member.applyLocalVipChange
  split
  · exact h
  split
  · exact h
  have hn : (m.core.applyLocalVipChange P vip env.pick env.now).myNodeId = m.core.myNodeId := by
    unfold Engine.applyLocalVipChange
    split
    · rfl
    split <;> rfl
  have he : m.epoch ≤ min (m.core.applyLocalVipChange P vip env.pick env.now).vipEpoch (2 ^ 64 - 1) := by
    unfold Engine.applyLocalVipChange epoch
    split
    · exact le_rfl
    split
    · exact le_rfl
    dsimp only; omega
  have hown := (hcore _ hn he).insertOwn
  exact ⟨hown.own, hown.claims⟩

theorem OwnToo.tryLocalVipReroll (h : OwnToo q m) (vip : String) : OwnToo q (m.tryLocalVipReroll P vip env).1 := by
  unfold Member.tryLocalVipReroll
  dsimp only
  split
  · have hc := h.applyLocalVipChange P env (by assumption)
    split
    · exact ⟨hc.own, hc.claims⟩
    exact hc
  · exact ⟨h.own, h.claims⟩

theorem OwnToo.settleLoser {pre : ClaimMap} (h : OwnToo q acc.1) (loser : String) :
    OwnToo q (settleLoser P pre env acc loser).1 := by
  unfold Member.settleLoser
  dsimp only
  split
  · have hr := h.tryLocalVipReroll P env acc.1.core.myVip
    split
    · exact hr
    exact hr.insertOwn
  split
  · rename_i c _
    have hn : (acc.1.core.vipFight loser c.vip env.now).myNodeId = acc.1.core.myNodeId := (vipFight_core _ _ _ _).1
    have he : (acc.1.core.vipFight loser c.vip env.now).vipEpoch = acc.1.core.vipEpoch := (vipFight_core _ _ _ _).2.2
    refine ⟨fun vip e hve => ?_, h.claims.erase⟩
    simp only [epoch, he] at hve
    simp only [hn]
    exact h.own vip e hve
  · exact h

theorem OwnToo.fight (h : OwnToo q m) (contested : String) (peers : List String) :
    OwnToo q (fight P contested env m peers).1 := by
  induction peers generalizing m with
  | nil => exact h
  | cons _ peers ih =>
    have hr := h.tryLocalVipReroll P env contested
    unfold Member.fight
    dsimp only
    split
    · exact hr
    exact ih hr

theorem OwnToo.applyClaimSettleAndLocalFight (h : OwnToo q m) :
    OwnToo q (m.applyClaimSettleAndLocalFight P env).1 := by
  have hstart : OwnToo q { m with claimMap := (settleDuplicateVips m.claimMap env.order).1 } :=
    ⟨h.own, h.claims.settle env.order⟩
  have hsettled := List.foldlRecOn (motive := fun acc : Member × Bool => OwnToo q acc.1) (settleDuplicateVips m.claimMap env.order).2
    (Member.settleLoser P m.claimMap env) (b := (_, false)) hstart fun acc ha loser _ => ha.settleLoser P env loser
  unfold Member.applyClaimSettleAndLocalFight
  dsimp only
  generalize (settleDuplicateVips m.claimMap env.order).2.foldl _ _ = r at hsettled ⊢
  have hf := hsettled.fight P env r.1.core.myVip r.1.fighters
  split
  · exact ⟨hf.own, hf.claims⟩
  exact hf

/-! ## No contest -/

theorem NoContest.settleLoser (pre : ClaimMap) (h : NoContest q acc.1) {loser : String}
    (hl : loser ≠ acc.1.core.myNodeId) : NoContest q (settleLoser P pre env acc loser).1 ∧
    (settleLoser P pre env acc loser).1.core.myNodeId = acc.1.core.myNodeId := by
  unfold Member.settleLoser
  dsimp only
  rw [if_neg hl]
  split
  · rename_i c _
    have hn : (acc.1.core.vipFight loser c.vip env.now).myNodeId = acc.1.core.myNodeId := (vipFight_core _ _ _ _).1
    have hv : (acc.1.core.vipFight loser c.vip env.now).myVip = acc.1.core.myVip := (vipFight_core _ _ _ _).2.1
    refine ⟨⟨fun n vip e hq => ?_, h.claims.erase⟩, hn⟩
    simp only [hn, hv]
    exact h.away n vip e hq
  · exact ⟨h, rfl⟩

theorem NoContest.fighters (h : NoContest q m) : m.fighters = [] := by
  unfold Member.fighters
  rw [List.map_eq_nil_iff, List.filter_eq_nil_iff]
  intro c hc
  obtain ⟨e, he, rfl⟩ := List.mem_map.mp hc
  have hq := h.claims e.1 e.2 ((HashMap.lookup_eq_some_iff m.claimMap).mpr he)
  simp [shouldRerollForVipFight, (h.away _ _ _ hq).2]

theorem NoContest.applyClaimSettleAndLocalFight (h : NoContest q m) :
    NoContest q (m.applyClaimSettleAndLocalFight P env).1 := by
  have hlosers : ∀ (losers : List String) (acc : Member × Bool), NoContest q acc.1 →
      (∀ l ∈ losers, l ≠ acc.1.core.myNodeId) →
      NoContest q (losers.foldl (Member.settleLoser P m.claimMap env) acc).1 := by
    intro losers
    induction losers with
    | nil => exact fun _ ha _ => ha
    | cons loser losers ih =>
      intro acc ha hl
      obtain ⟨hstep, hn⟩ := ha.settleLoser P env m.claimMap (hl loser List.mem_cons_self)
      refine ih _ hstep fun l hmem => ?_
      rw [hn]
      exact hl l (List.mem_cons_of_mem _ hmem)
  have hsettled := hlosers (settleDuplicateVips m.claimMap env.order).2
    ({ m with claimMap := (settleDuplicateVips m.claimMap env.order).1 }, false) ⟨h.away, h.claims.settle env.order⟩
    fun l hl => by
      obtain ⟨c, hc⟩ := mem_losers hl
      exact (h.away _ _ _ (h.claims l c hc)).1
  unfold Member.applyClaimSettleAndLocalFight
  dsimp only
  rw [hsettled.fighters]
  split
  · exact ⟨hsettled.away, hsettled.claims⟩
  exact hsettled

/-! ## Handlers -/

def Settles (q : String → String → Nat → Prop) (m : Member) : Prop := OwnToo q m ∨ NoContest q m

theorem Settles.claims (h : Settles q m) : AllClaims q m.claimMap := h.elim OwnToo.claims NoContest.claims

theorem Settles.settle (h : Settles q m) : AllClaims q (m.applyClaimSettleAndLocalFight P env).1.claimMap :=
  h.elim (fun h => (h.applyClaimSettleAndLocalFight P env).claims) fun h =>
    (h.applyClaimSettleAndLocalFight P env).claims

variable {P env}

theorem Settles.replace (h : Settles q m) (hn : m'.core.myNodeId = m.core.myNodeId)
    (hv : m'.core.myVip = m.core.myVip) (he : m'.core.vipEpoch = m.core.vipEpoch) (hc : AllClaims q m'.claimMap) :
    Settles q m' := by
  rcases h with h | h
  · refine .inl ⟨fun vip e hve => ?_, hc⟩
    unfold epoch at hve
    rw [he] at hve
    rw [hn]
    exact h.own vip e hve
  refine .inr ⟨fun n vip e hq => ?_, hc⟩
  rw [hn, hv]
  exact h.away n vip e hq

theorem Settles.merge (h : Settles q m)
    (hc : leaveTombstoneBlocks m.leaveTombs c.nodeId c.vipEpoch env.now = false → q c.nodeId c.vip c.vipEpoch) :
    Settles q (m.merge c env).1 := h.replace rfl rfl rfl (h.claims.mergeClaim hc)

variable {W : WireText}

theorem enrich_same (rt : RoutingTable) (c : ClaimRecord) :
    (enrich W rt c).vip = c.vip ∧ (enrich W rt c).vipEpoch = c.vipEpoch := by
  unfold enrich
  split
  · exact ⟨rfl, rfl⟩
  split
  · split <;> exact ⟨rfl, rfl⟩
  exact ⟨rfl, rfl⟩

theorem allClaims_broadcast (h : AllClaims q m.claimMap) : AllClaims q (broadcastClaimGossip W m env).1.claimMap := by
  have he := h.mapVals (enrich_same (W := W) m.core.routing)
  unfold broadcastClaimGossip
  split
  · exact h
  dsimp only
  split <;> exact he

theorem allClaims_flush (h : AllClaims q m.claimMap) : AllClaims q (flushPendingClaimGossip W m env).1.claimMap := by
  unfold flushPendingClaimGossip
  split
  · exact h
  exact allClaims_broadcast h

theorem Settles.applyRemoteClaim (h : Settles q m) {vip : String} {e : Nat}
    (hc : leaveTombstoneBlocks m.leaveTombs n e env.now = false → q n vip e) (fromEp : SocketAddr) :
    AllClaims q (m.applyRemoteClaim P W n vip e fromEp env).claimMap := by
  have hm := h.merge (c := ⟨n, vip, e, [W.addrToString fromEp]⟩) hc
  unfold Member.applyRemoteClaim
  split
  · exact h.claims
  dsimp only
  split
  · exact hm.claims
  have hs := hm.settle P env
  generalize (m.merge ⟨n, vip, e, [W.addrToString fromEp]⟩ env).1.applyClaimSettleAndLocalFight P env = r at hs ⊢
  split
  · exact hs
  exact hs

section
variable (h : Settles q m) (hc : ∀ j, body.json = some j → leaveTombstoneBlocks m.leaveTombs j.nodeId j.vipEpoch env.now = false → q j.nodeId j.vip j.vipEpoch)
include h hc

theorem Settles.handleJoin {fromEp : SocketAddr} : AllClaims q (m.handleJoin P W body fromEp env).1.claimMap := by
  have ha : (m.allowJoin fromEp env.now).1.core = m.core ∧ (m.allowJoin fromEp env.now).1.claimMap = m.claimMap ∧
      (m.allowJoin fromEp env.now).1.leaveTombs = m.leaveTombs := by
    unfold allowJoin
    dsimp only
    split <;> exact ⟨rfl, rfl, rfl⟩
  have hs : Settles q (m.allowJoin fromEp env.now).1 := by
    refine h.replace ?_ ?_ ?_ ?_
    · rw [ha.1]
    · rw [ha.1]
    · rw [ha.1]
    · rw [ha.2.1]; exact h.claims
  unfold Member.handleJoin
  split
  · exact h.claims
  dsimp only
  split
  · exact hs.claims
  split
  · exact hs.claims
  rename_i j hj
  split
  · exact hs.claims
  refine allClaims_broadcast (hs.applyRemoteClaim (fun hb => hc j hj ?_) fromEp)
  rw [← ha.2.2]; exact hb

theorem Settles.handleJoinAck {fromEp : SocketAddr} : AllClaims q (m.handleJoinAck P W body fromEp env).claimMap := by
  unfold Member.handleJoinAck
  split
  · exact h.claims
  split
  · exact h.claims
  rename_i j hj
  have hr := h.applyRemoteClaim (P := P) (W := W) (hc j hj) fromEp
  split
  · exact h.claims
  dsimp only
  split
  · exact hr
  split <;> exact hr

end

theorem Settles.mergeAll (claims : List ClaimRecord) (acc : Member × List (ClaimRecord × MergeOutcome))
    (h : Settles q acc.1) (hc : ∀ c ∈ claims, c.nodeId ≠ acc.1.core.myNodeId →
      leaveTombstoneBlocks acc.1.leaveTombs c.nodeId c.vipEpoch env.now = false → q c.nodeId c.vip c.vipEpoch) :
    Settles q (claims.foldl (gossipClaim P env) acc).1 := by
  induction claims generalizing acc with
  | nil => exact h
  | cons c claims ih =>
    have hstep : Settles q (gossipClaim P env acc c).1 ∧ (gossipClaim P env acc c).1.core = acc.1.core ∧
        (gossipClaim P env acc c).1.leaveTombs = acc.1.leaveTombs := by
      unfold gossipClaim
      dsimp only
      split
      · exact ⟨h, rfl, rfl⟩
      rename_i hguard
      simp only [Bool.or_eq_true, decide_eq_true_eq, not_or] at hguard
      exact ⟨h.merge (hc c List.mem_cons_self hguard.2), rfl, rfl⟩
    refine ih _ hstep.1 fun c' hmem => ?_
    rw [hstep.2.1, hstep.2.2]
    exact hc c' (List.mem_cons_of_mem _ hmem)

theorem allClaims_gossipRoutes (j : GossipJson) (len : Nat) (fromEp : SocketAddr) (env : Env)
    (routes : List (ClaimRecord × MergeOutcome)) (h : AllClaims q acc.1.claimMap) :
    AllClaims q (routes.foldl (gossipRoute W j len fromEp env) acc).1.claimMap := by
  refine List.foldlRecOn (motive := fun acc : Member × Bool => AllClaims q acc.1.claimMap) routes _ h
    fun acc h r _ => ?_
  unfold gossipRoute
  dsimp only
  split
  · exact h
  split <;> exact h

theorem Settles.gossipClaims (h : Settles q m) {claims : List ClaimRecord}
    (hc : ∀ c ∈ claims, c.nodeId ≠ m.core.myNodeId →
      leaveTombstoneBlocks m.leaveTombs c.nodeId c.vipEpoch env.now = false → q c.nodeId c.vip c.vipEpoch)
    {j : GossipJson} {fromEp : SocketAddr} : AllClaims q (m.gossipClaims P W j claims fromEp env).1.claimMap := by
  have hmerged := Settles.mergeAll (P := P) claims (m, []) h hc
  have hsettled := hmerged.settle P env
  have hrouted := allClaims_gossipRoutes (W := W) j claims.length fromEp env
    (claims.foldl (gossipClaim P env) (m, [])).2 hsettled
  unfold Member.gossipClaims
  dsimp only
  split
  · exact allClaims_broadcast hrouted
  exact hrouted

end

/-! ## Clear of tombstones -/

/-- No claim is at or below the epoch of an unexpired tombstone of its node. -/
def ClaimsClear (m : Member) (now : Instant) : Prop :=
  ∀ n c t, m.claimMap.lookup n = some c → m.leaveTombs.lookup n = some t → now < t.expiresAt → t.vipEpoch < c.vipEpoch

def Unblocked (tombs : Marks) (now : Instant) (n _vip : String) (e : Nat) : Prop :=
  leaveTombstoneBlocks tombs n e now = false

theorem claimsClear_iff : m.ClaimsClear now ↔ AllClaims (Unblocked m.leaveTombs now) m.claimMap := by
  constructor
  · intro h n c hc
    unfold Unblocked
    rw [Bool.eq_false_iff, ne_eq, leaveTombstoneBlocks_eq_true_iff]
    intro hb
    obtain ⟨t, ht, hexp, he⟩ := hb
    exact absurd (h n c t hc ht hexp) (Nat.not_lt.mpr he)
  intro h n c t hc ht hexp
  refine Nat.lt_of_not_le fun he => ?_
  have hb := leaveTombstoneBlocks_eq_true_iff.mpr ⟨t, ht, hexp, he⟩
  have := h n c hc
  unfold Unblocked at this
  rw [hb] at this
  cases this

theorem ClaimsClear.later {now' : Instant} (h : m.ClaimsClear now) (hn : now ≤ now') :
    m.ClaimsClear now' := fun n c t hc ht hexp => h n c t hc ht (lt_of_le_of_lt hn hexp)

def Peaceful (m : Member) (offered : List ClaimRecord) (now : Instant) : Prop :=
  leaveTombstoneBlocks m.leaveTombs m.core.myNodeId m.epoch now = true →
    (∀ n c, m.claimMap.lookup n = some c → n ≠ m.core.myNodeId ∧ c.vip ≠ m.core.myVip) ∧
      ∀ c ∈ offered, c.nodeId ≠ m.core.myNodeId ∧ c.vip ≠ m.core.myVip

theorem Peaceful.settles {offered : List ClaimRecord} (hp : m.Peaceful offered now) (hc : m.ClaimsClear now) : ∃ q :
    String → String → Nat → Prop, (∀ n vip e, q n vip e → Unblocked m.leaveTombs now n vip e) ∧ Settles q m ∧ ∀ c ∈
    offered, Unblocked m.leaveTombs now c.nodeId c.vip c.vipEpoch → q c.nodeId c.vip c.vipEpoch := by
  have hclear := claimsClear_iff.mp hc
  cases hb : leaveTombstoneBlocks m.leaveTombs m.core.myNodeId m.epoch now with
  | false =>
    refine ⟨Unblocked m.leaveTombs now, fun _ _ _ h => h, .inl ⟨fun vip e he => ?_, hclear⟩, fun _ _ h => h⟩
    refine Bool.eq_false_iff.mpr fun hb' => ?_
    rw [leaveTombstoneBlocks_mono he le_rfl hb'] at hb
    cases hb
  | true =>
    obtain ⟨hmap, hoff⟩ := hp hb
    refine ⟨fun n vip e => Unblocked m.leaveTombs now n vip e ∧ n ≠ m.core.myNodeId ∧ vip ≠ m.core.myVip,
      fun _ _ _ h => h.1, .inr ⟨fun _ _ _ h => h.2, fun n c hl => ?_⟩, fun c hmem h => ⟨h, hoff c hmem⟩⟩
    exact ⟨hclear n c hl, hmap n c hl⟩

def othersClaims (m : Member) (body : Body GossipJson) : List ClaimRecord :=
  ((body.json.bind (·.claims)).getD []).filter (·.nodeId ≠ m.core.myNodeId)

/-- Each leave in a digest is older than the claim of its node, if there is one, and a member that has
left is not drawn into a fight for its address. -/
def KeepsClear (P : Primitives) (m : Member) (ev : Env × Event) : Prop :=
  match ev.2 with
  | .join body _ _ => m.Peaceful (body.json.toList.map JoinJson.claim) ev.1.now
  | .joinAck body _ _ => m.Peaceful (body.json.toList.map JoinJson.claim) ev.1.now
  | .claimGossip body _ true =>
    (∀ l ∈ m.processedLeaves P ev, ∀ c, m.claimMap.lookup l.nodeId = some c → l.vipEpoch < c.vipEpoch) ∧
      Peaceful { m with leaveTombs := installAll ev.1.now m.leaveTombs (m.processedLeaves P ev) }
        (m.othersClaims body)
        ev.1.now
  | .presenceTick => m.Peaceful [] ev.1.now
  | _ => True

section
variable {P : Primitives} {W : WireText} {m : Member} {env : Env}

theorem claimsClear_of (ht : m'.leaveTombs = tombs)
    (hc : AllClaims (Unblocked tombs now) m'.claimMap) : m'.ClaimsClear now := by
  subst ht
  exact claimsClear_iff.mpr hc

section
variable (h : m.ClaimsClear env.now)
include h

theorem ClaimsClear.join (hok : m.Peaceful (body.json.toList.map JoinJson.claim) env.now)
    (hh : ∀ (q : String → String → Nat → Prop) (m : Member), Settles q m →
      (∀ j, body.json = some j → leaveTombstoneBlocks m.leaveTombs j.nodeId j.vipEpoch env.now = false →
        q j.nodeId j.vip j.vipEpoch) → AllClaims q (handle m).1.claimMap) {tag : Tag} {fromEp : SocketAddr}
          {auth : Bool} :
    AllClaims (Unblocked m.leaveTombs env.now) (m.dispatch tag fromEp auth env handle).1.claimMap := by
  obtain ⟨q, hq, hs, hoff⟩ := hok.settles h
  have hs' : Settles q { m with core := (m.core.admitControl tag fromEp auth env.now).1 } :=
    hs.replace rfl rfl rfl hs.claims
  unfold dispatch
  dsimp only
  split
  · refine (hh q _ hs' fun j hj hb => hoff j.claim ?_ hb).imp hq
    simp [hj]
  exact hs.claims.imp hq

theorem ClaimsClear.dispatch_dropped (hh : ∀ m, (handle m).1 = m) {tag : Tag}
    {fromEp : SocketAddr} {auth : Bool} : (m.dispatch tag fromEp auth env handle).1.ClaimsClear env.now := by
  unfold dispatch
  dsimp only
  split
  · rw [hh]; exact h
  exact h

theorem ClaimsClear.installAll {leaves : List LeaveItem}
    (hl : ∀ l ∈ leaves, ∀ c, m.claimMap.lookup l.nodeId = some c → l.vipEpoch < c.vipEpoch) :
    ClaimsClear { m with leaveTombs := installAll env.now m.leaveTombs leaves } env.now := by
  intro n c t hc ht hexp
  rw [show ({ m with leaveTombs := Member.installAll env.now m.leaveTombs leaves } : Member).leaveTombs.lookup n =
    _ from installAll_lookup] at ht
  cases hlast : (leaves.filter (·.nodeId = n)).getLast? with
  | none =>
    rw [hlast] at ht
    exact h n c t hc ht hexp
  | some l =>
    rw [hlast] at ht
    cases ht
    have hmem := List.mem_filter.mp (List.mem_of_getLast? hlast)
    rw [decide_eq_true_eq] at hmem
    refine hl l hmem.1 c ?_
    rw [hmem.2]; exact hc

theorem ClaimsClear.claimGossip {body : Body GossipJson} {fromEp : SocketAddr}
    (hok : KeepsClear P m (env, .claimGossip body fromEp true)) : AllClaims
    (Unblocked (m.handleClaimGossipBody P W body fromEp env).1.leaveTombs env.now)
    (m.handleClaimGossipBody P W body fromEp env).1.claimMap := by
  have hafter := h.installAll hok.1
  obtain ⟨q, hq, hs, hoff⟩ := hok.2.settles hafter
  rw [handleClaimGossipBody_leaveTombs]
  refine AllClaims.imp ?_ hq
  unfold handleClaimGossipBody
  unfold processedLeaves at hs hoff
  dsimp only at hs hoff
  split
  · exact hs.claims
  rename_i hlen
  rw [if_neg hlen] at hs hoff
  cases hj : body.json with
  | none => exact hs.claims
  | some j =>
    rw [hj] at hs hoff
    dsimp only
    rw [foldl_installLeave_eq]
    cases hcl : j.claims with
    | none => exact hs.claims
    | some claims =>
      refine hs.gossipClaims (fun c hmem hn hb => hoff c ?_ hb)
      simp only [othersClaims, hj, Option.bind_some, hcl, Option.getD_some, List.mem_filter]
      exact ⟨hmem, by simpa using hn⟩

theorem ClaimsClear.leave {body : Body LeaveJson} : (m.handleLeave P body env).ClaimsClear env.now := by
  cases hl : m.acceptedLeave P body env with
  | none =>
    obtain ⟨ht, hc, _⟩ := m.handleLeave_of_none env hl
    intro n c t
    rw [ht, hc]
    exact h n c t
  | some j =>
    obtain ⟨ht, hc⟩ := m.handleLeave_of_some env hl
    intro n c t
    rw [ht, hc, HashMap.lookup_erase_eq, HashMap.lookup_insert_eq]
    split
    · exact fun hn => (by cases hn)
    exact h n c t

theorem ClaimsClear.broadcastLeave {msg : LeaveJson} : (m.broadcastLeave P msg env).1.ClaimsClear env.now := by
  have ht := m.broadcastLeave_leaveTombs (P := P) env msg
  intro n c t
  rw [ht, installAll_lookup]
  unfold Member.broadcastLeave
  split
  · rename_i hv
    have hno : m.acceptsLeave P env msg.toLeaveItem = false := by
      simp only [Bool.not_eq_true'] at hv
      simp [acceptsLeave, hv]
    simp only [List.filter_cons, hno, List.filter_nil]
    exact h n c t
  dsimp only
  rw [removeClaim, HashMap.lookup_erase_eq]
  split
  · exact fun hn => (by cases hn)
  rename_i hn
  have hnil : (([msg.toLeaveItem].filter (m.acceptsLeave P env)).filter (·.nodeId = n)) = [] := by
    rw [List.filter_eq_nil_iff]
    intro l hl
    rw [List.mem_singleton.mp (List.mem_filter.mp hl).1]
    simpa using Ne.symm hn
  rw [hnil]
  exact h n c t

theorem ClaimsClear.syncTick : (Member.syncTick W m env).1.ClaimsClear env.now := by
  have hpruned : ClaimsClear { m with
        leaveTombs := pruneLeaveTombstones m.leaveTombs env.now
        fightSuppress := pruneFightSuppress m.fightSuppress env.now } env.now := by
    intro n c t hc ht hexp
    rw [show (pruneLeaveTombstones m.leaveTombs env.now).lookup n = _ from HashMap.lookup_retain m.leaveTombs _ n,
      Option.filter_eq_some_iff] at ht
    exact h n c t hc ht.1 hexp
  refine claimsClear_of syncTick_leaveTombs ?_
  exact allClaims_broadcast (allClaims_flush (claimsClear_iff.mp hpruned))

theorem ClaimsClear.staleEvict {staleMark staleAge : Nat} :
    (m.staleEvict staleMark staleAge env).ClaimsClear env.now := by
  refine claimsClear_iff.mpr (List.foldlRecOn _ _ (claimsClear_iff.mp h) fun map hm vip _ => ?_)
  unfold forgetRoute
  split
  · split
    · exact hm.erase
    exact hm.retain
  exact hm

theorem ClaimsClear.presenceTick (hok : m.Peaceful [] env.now) :
    AllClaims (Unblocked m.leaveTombs env.now) (m.presenceTick P W env).1.claimMap := by
  obtain ⟨q, hq, hs, _⟩ := hok.settles h
  refine AllClaims.imp ?_ hq
  unfold Member.presenceTick
  split
  · exact hs.claims
  refine allClaims_flush ?_
  unfold retryVipFightIfDue
  split
  · exact hs.claims
  split
  · exact hs.claims
  exact Settles.settle P env (hs.replace rfl rfl rfl hs.claims)

end

theorem ClaimsClear.step {ev : Env × Event} (h : m.ClaimsClear ev.1.now) (hok : KeepsClear P m ev) :
    (step P W m ev).1.ClaimsClear ev.1.now := by
  have htombs := step_leaveTombs (P := P) (W := W) m ev
  obtain ⟨env, ev⟩ := ev
  cases ev with
  | join body fromEp auth =>
    exact claimsClear_of htombs (h.join hok (fun q m hs hc => hs.handleJoin hc))
  | joinAck body fromEp auth =>
    exact claimsClear_of htombs (h.join hok (fun q m hs hc => hs.handleJoinAck hc))
  | claimGossip body fromEp auth =>
    cases auth with
    | false => exact h.dispatch_dropped (fun _ => rfl)
    | true =>
      simp only [Member.step, dispatch_authenticated, if_true]
      exact claimsClear_iff.mpr (h.claimGossip hok)
  | leave body fromEp auth =>
    cases auth with
    | false => exact h.dispatch_dropped (fun _ => rfl)
    | true =>
      simp only [Member.step, dispatch_authenticated, if_true]
      exact h.leave
  | broadcastLeave msg => exact h.broadcastLeave
  | triggerClaimGossip => exact claimsClear_of htombs (allClaims_broadcast (claimsClear_iff.mp h))
  | syncTick => exact h.syncTick
  | presenceTick => exact claimsClear_of htombs (h.presenceTick hok)
  | staleEvict staleMark staleAge => exact h.staleEvict

/-- From a fresh member on, the claims stay clear of the tombstones if every event meets the condition. -/
theorem claims_clear_of_each {core : Engine} {msynBodyMax : Nat} {start : Instant} {as : List (Nat × Env × Event)}
    (hok : Each (timedStep P W) (start, Member.new core msynBodyMax start) as
      fun s a => KeepsClear P s.2 (eventAt s a)) (i : Nat)
    (hnow : (stateAt (timedStep P W) (start, Member.new core msynBodyMax start) as i).1 ≤ now) :
    (stateAt (timedStep P W) (start, Member.new core msynBodyMax start) as i).2.ClaimsClear now := by
  have hinv := Machine.invariant (P := fun s => s.2.ClaimsClear s.1) (fun n c t hc => (by cases hc))
    (fun s a hk hs => (hs.later (Nat.le_add_right s.1 a.1)).step hk) hok
  exact (hinv i).later hnow

end

/-- A digest with a claim of `b` at epoch 5, then one with a leave of `b`. -/
def claimThenLeave (epoch : Nat) : List (Nat × Env × Event) :=
  [(0, quietEnv, .claimGossip ⟨200, some ⟨"b", none, some [⟨"b", "10.0.0.2", 5, []⟩]⟩⟩ (.v4 0xC0A80102 7777) true),
   (secs 1, quietEnv, .claimGossip ⟨90, some ⟨"c", some [⟨"b", "10.0.0.2", epoch⟩], none⟩⟩
     (.v4 0xC0A80103 7777) true)]

theorem older_gossiped_leave_keeps_clear :
    (run (timedStep .transparent mute) (0, memberA) (claimThenLeave 3)).2.ClaimsClear (secs 2) := by
  have hclear : _ → _ → (stateAt (timedStep .transparent mute) (0, memberA) (claimThenLeave 3) 2).2.ClaimsClear
      (secs 2) := fun hok hnow => claims_clear_of_each (P := .transparent) (W := mute) hok 2 hnow
  refine hclear ?_ (by decide)
  intro i a ha
  match i, ha with
  | 0, ha =>
    cases ha
    refine ⟨fun l hl => ?_, fun hb => absurd hb (by decide)⟩
    have hnone : l ∈ ([] : List LeaveItem) := hl
    cases hnone
  | 1, ha =>
    cases ha
    refine ⟨fun l hl c hc => ?_, fun hb => absurd hb (by decide)⟩
    have hone : l ∈ [(⟨"b", "10.0.0.2", 3⟩ : LeaveItem)] := hl
    rw [List.mem_singleton.mp hone] at hc ⊢
    have hclaim : some (⟨"b", "10.0.0.2", 5, [""]⟩ : ClaimRecord) = some c := by rw [← hc]; decide
    cases hclaim
    decide

/-- A leave inside a digest does not take out the claim that it covers. -/
theorem gossiped_leave_leaves_claim :
    ¬ (run (timedStep .transparent mute) (0, memberA) (claimThenLeave 5)).2.ClaimsClear (secs 1) := by
  intro h
  have hclaim : (run (timedStep .transparent mute) (0, memberA) (claimThenLeave 5)).2.claimMap.lookup "b" =
      some ⟨"b", "10.0.0.2", 5, [""]⟩ := by decide
  have htomb : (run (timedStep .transparent mute) (0, memberA) (claimThenLeave 5)).2.leaveTombs.lookup "b" =
      some ⟨"b", "10.0.0.2", 5, secs 301⟩ := by decide
  exact absurd (h "b" _ _ hclaim htomb (by decide)) (by decide)

end Member

end ConnectUnit
