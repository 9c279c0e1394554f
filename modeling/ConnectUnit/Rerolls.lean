import ConnectUnit.RoutingSound
import ConnectUnit.Settling
import ConnectUnit.VipText

/-!
# Rerolls of the local address

What `apply_claim_settle_and_local_fight` does to a member that may be part
of a contest itself: it keeps its address and drops the claims of the losers,
or it moves, once, to an address that nobody else claims.
-/

open HashMap (lookup_insert_eq)

namespace ConnectUnit

variable {vip n : String} {pre : ClaimMap} {ls : List String} {m m' m'' : Member} {c : ClaimRecord}

theorem nodup_losers (map : ClaimMap) (order : IterOrder) : (settleDuplicateVips map order).2.Nodup := by
  unfold settleDuplicateVips
  dsimp only
  refine List.nodup_flatMap.mpr ⟨fun vip _ => (nodup_claimants).sublist (List.drop_sublist 1 _), ?_⟩
  have hvips : (order.arrange (map.entries.map (·.2.vip)).dedup).Nodup :=
    (order.arrange_perm _).nodup_iff.mpr (List.nodup_dedup _)
  refine hvips.imp fun {vip vip'} hne n hn hn' => ?_
  obtain ⟨c, hc, hv⟩ := mem_claimants.mp (List.mem_of_mem_drop hn)
  obtain ⟨c', hc', hv'⟩ := mem_claimants.mp (List.mem_of_mem_drop hn')
  cases hc.symm.trans hc'
  exact hne (hv.symm.trans hv')

/-- Of each address the claim with the smallest node id is kept, the others are the losers of the pairwise rule. -/
theorem settleDuplicateVips_spec (map : ClaimMap) (order : IterOrder) :
    (∀ n c, (settleDuplicateVips map order).1.lookup n = some c ↔
      map.lookup n = some c ∧ ∀ k d, map.lookup k = some d → d.vip = c.vip → n ≤ k) ∧
    (∀ n c, map.lookup n = some c → ((settleDuplicateVips map order).1.lookup n = none ↔
      ∃ k d, k ≠ n ∧ map.lookup k = some d ∧ d.vip = c.vip ∧ shouldRerollForVipFight n c.vip k c.vip = true)) ∧
    (∀ order', settleDuplicateVips (settleDuplicateVips map order).1 order' = ((settleDuplicateVips map order).1, [])) ∧
    (settleDuplicateVips map order).2.Nodup ∧
    ∀ n, n ∈ (settleDuplicateVips map order).2 ↔
      (map.lookup n).isSome ∧ (settleDuplicateVips map order).1.lookup n = none := by
  have hkept : ∀ n, (settleDuplicateVips map order).1.lookup n =
      if n ∈ (settleDuplicateVips map order).2 then none else map.lookup n := lookup_foldl_removeClaim _
  have hrule : ∀ n k vip, shouldRerollForVipFight n vip k vip = true ↔ k < n := by
    intro n k vip
    simp only [shouldRerollForVipFight, localLosesVipConflict, nodeIdWins, decide_true, Bool.true_and, Bool.and_eq_true,
      Bool.not_eq_true', decide_eq_false_iff_not, decide_eq_true_eq, not_lt]
    exact ⟨fun h => lt_of_le_of_ne h.1 (Ne.symm h.2), fun h => ⟨le_of_lt h, ne_of_gt h⟩⟩
  refine ⟨fun n c => lookup_settled, fun n c hc => ?_, fun order' => ?_, nodup_losers map order, fun n => ?_⟩
  · rw [hkept]
    by_cases hn : n ∈ (settleDuplicateVips map order).2
    · obtain ⟨c', hc', k, d, hd, hv, hlt⟩ := mem_losers_iff.mp hn
      obtain rfl : c' = c := Option.some.inj (hc'.symm.trans hc)
      rw [if_pos hn]
      exact iff_of_true rfl ⟨k, d, ne_of_lt hlt, hd, hv, (hrule n k _).mpr hlt⟩
    rw [if_neg hn, hc]
    refine iff_of_false (Option.some_ne_none c) fun h => ?_
    obtain ⟨k, d, -, hd, hv, hlose⟩ := h
    exact hn (mem_losers_iff.mpr ⟨c, hc, k, d, hd, hv, (hrule n k _).mp hlose⟩)
  · have hnone : (settleDuplicateVips (settleDuplicateVips map order).1 order').2 = [] := by
      refine List.eq_nil_iff_forall_not_mem.mpr fun n hn => ?_
      obtain ⟨c, hc, k, d, hd, hv, hlt⟩ := mem_losers_iff.mp hn
      exact absurd ((lookup_settled.mp hc).2 k d (lookup_settled.mp hd).1 hv) (not_le.mpr hlt)
    refine Prod.ext ?_ hnone
    show (settleDuplicateVips (settleDuplicateVips map order).1 order').2.foldl removeClaim _ = _
    rw [hnone]
    rfl
  rw [hkept]
  by_cases hn : n ∈ (settleDuplicateVips map order).2
  · obtain ⟨c, hc, -⟩ := mem_losers_iff.mp hn
    simp [hn, hc]
  simp only [hn, if_false, false_iff, not_and]
  intro hsome hnone
  rw [hnone] at hsome
  cases hsome

namespace Member

section
variable {P : Primitives} {env : Env} {m : Member}

/-! ## One attempt -/

structure Moved (m m' : Member) : Prop where
  nodeId : m'.core.myNodeId = m.core.myNodeId
  vip : m'.core.myVip ≠ m.core.myVip
  epoch : m'.core.vipEpoch = min (m.core.vipEpoch + 1) (2 ^ 64 - 1)
  claims : ∀ n, n ≠ m.core.myNodeId → m'.claimMap.lookup n = m.claimMap.lookup n
  own : m'.claimMap.lookup m.core.myNodeId = some m'.ownClaim
  free : ∀ n c, m.claimMap.lookup n = some c → c.vip ≠ m'.core.myVip

theorem applyLocalVipChange_spec : m.applyLocalVipChange P vip env = (m, false) ∨
    (m.applyLocalVipChange P vip env).2 = true ∧ (m.applyLocalVipChange P vip env).1.core.myVip = vip ∧
    ((∀ n c, m.claimMap.lookup n = some c → c.vip ≠ vip) → Moved m (m.applyLocalVipChange P vip env).1) := by
  unfold Member.applyLocalVipChange
  split
  · exact .inl rfl
  rename_i hv
  rw [Bool.or_eq_true, not_or, decide_eq_true_eq, decide_eq_true_eq] at hv
  split
  · exact .inl rfl
  rename_i ha
  have hcore : m.core.applyLocalVipChange P vip env.pick env.now = { m.core with
        vipEpoch := min (m.core.vipEpoch + 1) (2 ^ 64 - 1)
        myVip := vip
        myVipU32 := (ipv4ToU32 vip).getD 0
        stateView := { m.core.stateView with myVip := vip }
        routing := m.core.routing.remove m.core.myVip env.now } := by
    unfold Engine.applyLocalVipChange
    rw [if_neg (not_or.mpr hv)]
    exact if_neg ha
  dsimp only
  rw [hcore]
  refine .inr ⟨rfl, rfl, fun hfree => ⟨rfl, fun h => hv.2 h, rfl, fun n hn => ?_, ?_, hfree⟩⟩
  · exact (lookup_insert_eq ..).trans (if_neg hn)
  exact (lookup_insert_eq ..).trans (if_pos rfl)

variable (P env) in
theorem tryLocalVipReroll_spec {contested : String} :
    (m.tryLocalVipReroll P contested env).2 = true ∧ Moved m (m.tryLocalVipReroll P contested env).1 ∨
      (m.tryLocalVipReroll P contested env).2 = false ∧
        ∃ after, (m.tryLocalVipReroll P contested env).1 = { m with vipRerollRetryAfter := after } := by
  unfold Member.tryLocalVipReroll
  dsimp only
  split
  · rename_i vip hpick
    rcases applyLocalVipChange_spec (P := P) (m := m) with h | ⟨h, hv, hmoved⟩
    · rw [h]
      exact .inr ⟨rfl, m.vipRerollRetryAfter, rfl⟩
    rw [if_pos h]
    have hfree : ∀ n c, m.claimMap.lookup n = some c → c.vip ≠ vip := fun n c hc he => by
      have hocc := pickFreeVip_free hpick
      have hany : m.claimMap.entries.any (·.2.vip = vip) = true :=
        List.any_eq_true.mpr ⟨⟨n, c⟩, (HashMap.lookup_eq_some_iff m.claimMap).mp hc, decide_eq_true he⟩
      simp [occupiedVipsForReroll, hany] at hocc
    have hm := hmoved hfree
    exact .inl ⟨rfl, hm.nodeId, hm.vip, hm.epoch, hm.claims, hm.own, hm.free⟩
  · exact .inr ⟨rfl, _, rfl⟩

def Exhausted (P : Primitives) (env : Env) (m : Member) : Prop :=
  pickFreeVip (rerollBase P (m.core.unitNetworkKey env.pick) m.core.myVip)
    (m.occupiedVipsForReroll m.core.myVip) = none

theorem tryLocalVipReroll_of_pick {contested : String}
    (h : pickFreeVip (rerollBase P (m.core.unitNetworkKey env.pick) m.core.myVip)
      (m.occupiedVipsForReroll contested) = some vip) :
    m.tryLocalVipReroll P contested env = if (m.applyLocalVipChange P vip env).2 then
      ({ (m.applyLocalVipChange P vip env).1 with vipRerollRetryAfter := none }, true)
      else ((m.applyLocalVipChange P vip env).1, false) := by
  unfold Member.tryLocalVipReroll
  dsimp only
  split
  · rename_i vip' h'
    cases h.symm.trans h'
    rfl
  rename_i h'
  cases h.symm.trans h'

theorem exhausted_of_failed (hown : m.acceptWireClaimVip P m.core.myVip env = true)
    (h : (m.tryLocalVipReroll P m.core.myVip env).2 = false) : m.Exhausted P env := by
  unfold Exhausted
  cases hpick : pickFreeVip (rerollBase P (m.core.unitNetworkKey env.pick) m.core.myVip)
      (m.occupiedVipsForReroll m.core.myVip) with
  | none => rfl
  | some vip =>
    obtain ⟨hne, hacc⟩ := acceptWireClaimVip_pick hown hpick
    have hfree := pickFreeVip_free hpick
    have hvip : vip ≠ m.core.myVip := fun he => by simp [occupiedVipsForReroll, he] at hfree
    have hok : (m.applyLocalVipChange P vip env).2 = true := by
      unfold Member.applyLocalVipChange
      rw [if_neg (by simp [hne, hvip]), if_neg]
      rw [show m.acceptWireClaimVip P vip env = true from hacc]
      decide
    rw [tryLocalVipReroll_of_pick hpick, if_pos hok] at h
    cases h

/-! ## The losers' turns -/

def suppressed (pre : ClaimMap) (env : Env) (marks : Marks) (n : String) : Option Mark :=
  match pre.lookup n with
  | some c => (installFightSuppress marks n c.vip c.vipEpoch env.now fightSuppressTtl).lookup n
  | none => marks.lookup n

structure Kept (pre : ClaimMap) (env : Env) (losers : List String) (m m' : Member) : Prop where
  nodeId : m'.core.myNodeId = m.core.myNodeId
  vip : m'.core.myVip = m.core.myVip
  epoch : m'.core.vipEpoch = m.core.vipEpoch
  pending : m'.pendingClaimGossip = m.pendingClaimGossip
  own : m.core.myNodeId ∉ losers ∧ m'.claimMap.lookup m.core.myNodeId = m.claimMap.lookup m.core.myNodeId ∨
    m'.claimMap.lookup m.core.myNodeId = some m.ownClaim
  claims : ∀ n, n ≠ m.core.myNodeId → m'.claimMap.lookup n = if n ∈ losers then none else m.claimMap.lookup n
  suppress : ∀ n, n ≠ m.core.myNodeId →
    m'.fightSuppress.lookup n = if n ∈ losers then suppressed pre env m.fightSuppress n else m.fightSuppress.lookup n
  keys : m'.core.cryptoKeys = m.core.cryptoKeys
  rows : ∀ vip, (m'.core.routing.table.lookup vip).isSome = true → (m.core.routing.table.lookup vip).isSome = true

theorem Kept.refl (pre : ClaimMap) (env : Env) (m : Member) : Kept pre env [] m m :=
  ⟨rfl, rfl, rfl, rfl, .inl ⟨List.not_mem_nil, rfl⟩, fun _ _ => (if_neg List.not_mem_nil).symm,
    fun _ _ => (if_neg List.not_mem_nil).symm, rfl, fun _ => id⟩

theorem Kept.ownClaim {m : Member} (h : Kept pre env ls m m') : m'.ownClaim = m.ownClaim := by
  unfold Member.ownClaim
  rw [h.nodeId, h.vip, h.epoch]

theorem suppressed_congr {marks marks' : Marks} (h : marks.lookup n = marks'.lookup n) :
    suppressed pre env marks n = suppressed pre env marks' n := by
  unfold suppressed installFightSuppress installMark
  split
  · split
    · exact h
    · rw [lookup_insert_eq, lookup_insert_eq, if_pos rfl, if_pos rfl]
  · exact h

theorem Kept.append {ls' : List String} {m : Member} (h : Kept pre env ls m m')
    (h' : Kept pre env ls' m' m'') (hd : ∀ l ∈ ls, l ∉ ls') : Kept pre env (ls ++ ls') m m'' := by
  refine ⟨h'.nodeId.trans h.nodeId, h'.vip.trans h.vip, h'.epoch.trans h.epoch, h'.pending.trans h.pending, ?_,
    fun n hn => ?_, fun n hn => ?_, h'.keys.trans h.keys, fun vip hv => h.rows vip (h'.rows vip hv)⟩
  · have h2 := h'.own
    rw [h.nodeId, h.ownClaim] at h2
    rcases h2 with ⟨hl', h2⟩ | h2
    · rcases h.own with ⟨hl, h1⟩ | h1
      · exact .inl ⟨fun hm => (List.mem_append.mp hm).elim hl hl', h2.trans h1⟩
      · exact .inr (h2.trans h1)
    · exact .inr h2
  · rw [h'.claims n (h.nodeId ▸ hn), h.claims n hn]
    by_cases h1 : n ∈ ls
    · simp [h1]
    simp [h1]
  rw [h'.suppress n (h.nodeId ▸ hn)]
  have h1 := h.suppress n hn
  by_cases hl : n ∈ ls
  · rw [if_neg (hd n hl), h1, if_pos hl, if_pos (List.mem_append_left _ hl)]
  rw [if_neg hl] at h1
  rw [suppressed_congr h1, h1]
  by_cases hl' : n ∈ ls'
  · rw [if_pos hl', if_pos (List.mem_append_right _ hl')]
  rw [if_neg hl', if_neg (fun hm => (List.mem_append.mp hm).elim hl hl')]

theorem vipFight_rows (e : Engine) (loser vip : String) (now : Instant) : (e.vipFight loser vip now).cryptoKeys =
    e.cryptoKeys ∧ ∀ v, ((e.vipFight loser vip now).routing.table.lookup v).isSome = true →
    (e.routing.table.lookup v).isSome = true := by
  unfold Engine.vipFight
  split
  · exact ⟨rfl, fun _ => id⟩
  have hrows : ∀ v, ((e.routing.remove vip now).table.lookup v).isSome = true →
      (e.routing.table.lookup v).isSome = true := by
    intro v hv
    rw [RoutingTable.remove_table] at hv
    split at hv
    · cases hv
    exact hv
  unfold Engine.onPeerRouteRemoved
  split <;> exact ⟨rfl, hrows⟩

variable (P env) in
theorem kept_settleLoser (pre : ClaimMap) (acc : Member × Bool) {loser : String}
    (hc : pre.lookup loser = some c) (hl : loser ≠ acc.1.core.myNodeId) :
    Kept pre env [loser] acc.1 (settleLoser P pre env acc loser).1 ∧ (settleLoser P pre env acc loser).2 = true := by
  unfold Member.settleLoser
  dsimp only
  rw [if_neg hl, hc]
  dsimp only
  obtain ⟨hn, hv, he⟩ := vipFight_core acc.1.core loser c.vip env.now
  obtain ⟨hkeys, hrows⟩ := vipFight_rows acc.1.core loser c.vip env.now
  have hown : acc.1.core.myNodeId ∉ [loser] := fun h => hl (List.mem_singleton.mp h).symm
  refine ⟨⟨hn, hv, he, rfl, .inl ⟨hown, ?_⟩, fun n _ => ?_, fun n _ => ?_, hkeys, hrows⟩, rfl⟩
  · exact (HashMap.lookup_erase_eq ..).trans (if_neg fun h => hl h.symm)
  · simp only [removeClaim, HashMap.lookup_erase_eq, List.mem_singleton]
  by_cases hnl : n = loser
  · subst hnl
    rw [if_pos List.mem_cons_self]
    unfold suppressed
    rw [hc]
  rw [if_neg (fun h => hnl (List.mem_singleton.mp h))]
  unfold installFightSuppress installMark
  split
  · rfl
  exact (lookup_insert_eq ..).trans (if_neg hnl)

variable (P env) in
theorem kept_foldl (pre : ClaimMap) (ls : List String) (hnd : ls.Nodup) (hpre : ∀ l ∈ ls, ∃ c, pre.lookup l = some c)
    (acc : Member × Bool) (hl : acc.1.core.myNodeId ∉ ls) : Kept pre env ls acc.1
    (ls.foldl (settleLoser P pre env) acc).1 ∧
    ((ls.foldl (settleLoser P pre env) acc).2 = true → acc.2 = true ∨ ∃ l, l ∈ ls) := by
  induction ls generalizing acc with
  | nil => exact ⟨Kept.refl pre env acc.1, .inl⟩
  | cons l ls ih =>
    obtain ⟨hnl, hnd⟩ := List.nodup_cons.mp hnd
    obtain ⟨c, hc⟩ := hpre l List.mem_cons_self
    obtain ⟨hk, -⟩ := kept_settleLoser P env pre acc hc fun h => hl (h ▸ List.mem_cons_self)
    obtain ⟨hk', -⟩ := ih hnd (fun k hk => hpre k (List.mem_cons_of_mem l hk)) (settleLoser P pre env acc l) (by
      rw [hk.nodeId]
      exact fun h => hl (List.mem_cons_of_mem l h))
    exact ⟨hk.append hk' fun k hk => List.mem_singleton.mp hk ▸ hnl, fun _ => .inr ⟨l, List.mem_cons_self⟩⟩

structure MovedAway (m m' : Member) : Prop where
  nodeId : m'.core.myNodeId = m.core.myNodeId
  vip : m'.core.myVip ≠ m.core.myVip
  epoch : m'.core.vipEpoch = min (m.core.vipEpoch + 1) (2 ^ 64 - 1)
  own : m'.claimMap.lookup m.core.myNodeId = some m'.ownClaim
  claims : ∀ n c, n ≠ m.core.myNodeId → m'.claimMap.lookup n = some c → m.claimMap.lookup n = some c
  alone : ∀ n c, n ≠ m.core.myNodeId → m'.claimMap.lookup n = some c → c.vip ≠ m'.core.myVip

theorem Moved.away (h : Moved m m') : MovedAway m m' :=
  ⟨h.nodeId, h.vip, h.epoch, h.own, fun n _ hn hc => h.claims n hn ▸ hc, fun n c hn hc =>
    h.free n c (h.claims n hn ▸ hc)⟩

theorem Kept.lookup {m : Member} (h : Kept pre env ls m m') (hn : n ≠ m.core.myNodeId)
    (hc : m'.claimMap.lookup n = some c) : n ∉ ls ∧ m.claimMap.lookup n = some c := by
  rw [h.claims n hn] at hc
  split at hc
  · cases hc
  rename_i hl
  exact ⟨hl, hc⟩

theorem Kept.movedAway {m : Member} (h : Kept pre env ls m m') (h' : MovedAway m' m'') : MovedAway m m'' := by
  have hn := h.nodeId
  refine ⟨h'.nodeId.trans hn, h.vip ▸ h'.vip, h.epoch ▸ h'.epoch, hn ▸ h'.own, fun n c hne hc => ?_,
    fun n c hne => h'.alone n c (hn ▸ hne)⟩
  exact (h.lookup hne (h'.claims n c (hn ▸ hne) hc)).2

theorem MovedAway.kept {m : Member} (h : MovedAway m m') (h' : Kept pre env ls m' m'') : MovedAway m m'' := by
  have hn := h.nodeId
  refine ⟨h'.nodeId.trans hn, h'.vip ▸ h.vip, h'.epoch.trans h.epoch, ?_, fun n c hne hc => ?_, fun n c hne hc => ?_⟩
  · have hown := h'.own
    rw [hn, h.own] at hown
    rw [hown.elim And.right id, h'.ownClaim]
  · exact h.claims n c hne (h'.lookup (hn ▸ hne) hc).2
  rw [h'.vip]
  exact h.alone n c hne (h'.lookup (hn ▸ hne) hc).2

variable (P env) in
theorem settleLoser_own (pre : ClaimMap) (acc : Member × Bool) : Moved acc.1
    (settleLoser P pre env acc acc.1.core.myNodeId).1 ∨ Kept pre env [acc.1.core.myNodeId] acc.1
    (settleLoser P pre env acc acc.1.core.myNodeId).1 ∧ (settleLoser P pre env acc acc.1.core.myNodeId).2 =
    acc.2 := by
  unfold Member.settleLoser
  dsimp only
  rw [if_pos rfl]
  rcases tryLocalVipReroll_spec P env with ⟨hr, hm⟩ | ⟨hr, after, he⟩
  · rw [if_pos hr]
    exact .inl hm
  rw [if_neg (Bool.eq_false_iff.mp hr), he]
  have hne : ∀ n, n ≠ acc.1.core.myNodeId → n ∉ [acc.1.core.myNodeId] := fun n hn h => hn (List.mem_singleton.mp h)
  refine .inr ⟨⟨rfl, rfl, rfl, rfl, .inr ?_, fun n hn => ?_, fun n hn => (if_neg (hne n hn)).symm, rfl,
    fun _ => id⟩, rfl⟩
  · exact (lookup_insert_eq ..).trans (if_pos rfl)
  rw [if_neg (hne n hn)]
  exact (lookup_insert_eq ..).trans (if_neg hn)

variable (P env) in
theorem losers_turns (pre : ClaimMap) (ls : List String) (hnd : ls.Nodup)
    (hpre : ∀ l ∈ ls, ∃ c, pre.lookup l = some c) (acc : Member × Bool) : acc.1.core.myNodeId ∈ ls ∧ MovedAway acc.1
    (ls.foldl (settleLoser P pre env) acc).1 ∨ Kept pre env ls acc.1 (ls.foldl (settleLoser P pre env) acc).1 ∧
    ((ls.foldl (settleLoser P pre env) acc).2 = true → acc.2 = true ∨ ∃ l ∈ ls, l ≠ acc.1.core.myNodeId) := by
  by_cases hown : acc.1.core.myNodeId ∈ ls
  · obtain ⟨ls₁, ls₂, rfl⟩ := List.append_of_mem hown
    have hsub₁ : ∀ l ∈ ls₁, l ∈ ls₁ ++ acc.1.core.myNodeId :: ls₂ := fun l => List.mem_append_left _
    have hsub₂ : ∀ l ∈ ls₂, l ∈ ls₁ ++ acc.1.core.myNodeId :: ls₂ := fun l hl =>
      List.mem_append_right _ (List.mem_cons_of_mem _ hl)
    obtain ⟨hnd₁, hnd₂, hd⟩ := List.nodup_append.mp hnd
    obtain ⟨hown₂, hnd₂⟩ := List.nodup_cons.mp hnd₂
    have hown₁ : acc.1.core.myNodeId ∉ ls₁ := fun h => hd _ h _ List.mem_cons_self rfl
    obtain ⟨hk₁, hf₁⟩ := kept_foldl P env pre ls₁ hnd₁ (fun l hl => hpre l (hsub₁ l hl)) acc hown₁
    rw [List.foldl_append, List.foldl_cons]
    generalize ls₁.foldl (settleLoser P pre env) acc = acc₁ at hk₁ hf₁ ⊢
    have hturn := settleLoser_own P env pre acc₁
    rw [hk₁.nodeId] at hturn
    have hrest : ∀ acc₂ : Member × Bool, acc₂.1.core.myNodeId = acc.1.core.myNodeId → _ := fun acc₂ he =>
      kept_foldl P env pre ls₂ hnd₂ (fun l hl => hpre l (hsub₂ l hl)) acc₂ (he ▸ hown₂)
    rcases hturn with hm | ⟨hk, hf⟩
    · obtain ⟨hk₂, -⟩ := hrest _ (hm.nodeId.trans hk₁.nodeId)
      exact .inl ⟨hown, hk₁.movedAway (hm.away.kept hk₂)⟩
    obtain ⟨hk₂, hf₂⟩ := hrest _ (hk.nodeId.trans hk₁.nodeId)
    refine .inr ⟨hk₁.append (hk.append hk₂ ?_) ?_, fun h => ?_⟩
    · exact fun l hl => List.mem_singleton.mp hl ▸ hown₂
    · exact fun l hl hl' => hd l hl l hl' rfl
    rcases hf₂ h with h | ⟨l, hl⟩
    · rcases hf₁ (hf ▸ h) with h | ⟨l, hl⟩
      · exact .inl h
      · exact .inr ⟨l, hsub₁ l hl, fun he => hown₁ (he ▸ hl)⟩
    · exact .inr ⟨l, hsub₂ l hl, fun he => hown₂ (he ▸ hl)⟩
  · obtain ⟨hk, hf⟩ := kept_foldl P env pre ls hnd hpre acc hown
    refine .inr ⟨hk, fun h => ?_⟩
    rcases hf h with h | ⟨l, hl⟩
    · exact .inl h
    exact .inr ⟨l, hl, fun he => hown (he ▸ hl)⟩

/-! ## The fight for the local address -/

theorem fight_spec (contested : String) (peers : List String) (m : Member) :
    peers ≠ [] ∧ Moved m (fight P contested env m peers).1 ∨ (fight P contested env m peers).2 = false ∧
        (∃ after, (fight P contested env m peers).1 = { m with vipRerollRetryAfter := after }) ∧
        (peers ≠ [] → (m.tryLocalVipReroll P contested env).2 = false) := by
  induction peers generalizing m with
  | nil => exact .inr ⟨rfl, ⟨m.vipRerollRetryAfter, rfl⟩, fun h => absurd rfl h⟩
  | cons peer peers ih =>
    unfold fight
    dsimp only
    rcases tryLocalVipReroll_spec P env with ⟨hr, hm⟩ | ⟨hr, after, he⟩
    · rw [if_pos hr]
      exact .inl ⟨List.cons_ne_nil _ _, hm⟩
    rw [if_neg (Bool.eq_false_iff.mp hr), he]
    rcases ih { m with vipRerollRetryAfter := after } with ⟨-, hm⟩ | ⟨hf, ⟨after', he'⟩, -⟩
    · exact .inl ⟨List.cons_ne_nil _ _, hm.nodeId, hm.vip, hm.epoch, hm.claims, hm.own, hm.free⟩
    exact .inr ⟨hf, ⟨after', he'⟩, fun _ => hr⟩

theorem mem_fighters (h : n ∈ m.fighters) : ∃ k c, m.claimMap.lookup k = some c ∧ c.nodeId = n ∧
    n ≠ m.core.myNodeId ∧ shouldRerollForVipFight m.core.myNodeId m.core.myVip n c.vip = true := by
  obtain ⟨c, hc, rfl⟩ := List.mem_map.mp h
  obtain ⟨hc, hf⟩ := List.mem_filter.mp hc
  obtain ⟨e, he, rfl⟩ := List.mem_map.mp hc
  rw [Bool.and_eq_true, decide_eq_true_eq] at hf
  exact ⟨e.1, e.2, (HashMap.lookup_eq_some_iff m.claimMap).mpr he, rfl, hf⟩

theorem MovedAway.fighters (h : MovedAway m m') : m'.fighters = [] := by
  refine List.eq_nil_iff_forall_not_mem.mpr fun n hn => ?_
  obtain ⟨k, c, hc, rfl, hne, hf⟩ := mem_fighters hn
  by_cases hk : k = m.core.myNodeId
  · rw [hk, h.own] at hc
    cases hc
    exact hne rfl
  unfold shouldRerollForVipFight at hf
  rw [Bool.and_eq_true, decide_eq_true_eq] at hf
  exact h.alone k c hk hc hf.1

def Beaten (m : Member) : Prop :=
  (∃ c, m.claimMap.lookup m.core.myNodeId = some c ∧
    ∃ k d, m.claimMap.lookup k = some d ∧ d.vip = c.vip ∧ k < m.core.myNodeId) ∨
  ∃ k c, m.claimMap.lookup k = some c ∧ c.nodeId ≠ m.core.myNodeId ∧
    shouldRerollForVipFight m.core.myNodeId m.core.myVip c.nodeId c.vip = true

theorem Kept.beaten (h : Kept pre env ls m m') (hf : m'.fighters ≠ []) : m.Beaten := by
  obtain ⟨n, hn⟩ := List.exists_mem_of_ne_nil _ hf
  obtain ⟨k, c, hc, rfl, hne, hs⟩ := mem_fighters hn
  rw [h.nodeId, h.vip] at hs
  rw [h.nodeId] at hne
  refine .inr ⟨k, c, ?_, hne, hs⟩
  by_cases hk : k = m.core.myNodeId
  · rw [hk] at hc ⊢
    rcases h.own with ⟨-, ho⟩ | ho
    · exact ho ▸ hc
    cases ho.symm.trans hc
    exact absurd rfl hne
  · exact (h.lookup hk hc).2

variable (P env) in
theorem settle_outcome (m : Member) : m.Beaten ∧ MovedAway m (m.applyClaimSettleAndLocalFight P env).1 ∨
      ∃ m', Kept m.claimMap env (settleDuplicateVips m.claimMap env.order).2 m m' ∧
        (m.applyClaimSettleAndLocalFight P env).1 =
          { m' with pendingClaimGossip := m.pendingClaimGossip || (m.applyClaimSettleAndLocalFight P env).2 } ∧
        ((m.applyClaimSettleAndLocalFight P env).2 = true →
          ∃ l ∈ (settleDuplicateVips m.claimMap env.order).2, l ≠ m.core.myNodeId) ∧
        (m'.fighters ≠ [] → m'.acceptWireClaimVip P m'.core.myVip env = true → m'.Exhausted P env) := by
  have hturns := losers_turns P env m.claimMap _ (nodup_losers m.claimMap env.order) (fun l hl => mem_losers hl)
    ({ m with claimMap := (settleDuplicateVips m.claimMap env.order).1 }, false)
  unfold Member.applyClaimSettleAndLocalFight
  dsimp only at hturns ⊢
  have hlookup : ∀ n, (settleDuplicateVips m.claimMap env.order).1.lookup n =
      if n ∈ (settleDuplicateVips m.claimMap env.order).2 then none else m.claimMap.lookup n :=
    lookup_foldl_removeClaim _
  generalize hls : (settleDuplicateVips m.claimMap env.order).2 = ls at hturns hlookup ⊢
  generalize ls.foldl _ _ = r at hturns ⊢
  rcases hturns with ⟨hown, hm⟩ | ⟨hk, hf⟩
  · rw [hm.fighters]
    refine .inl ⟨.inl (mem_losers_iff.mp (hls ▸ hown)), ?_⟩
    have haway : MovedAway m r.1 := by
      refine ⟨hm.nodeId, hm.vip, hm.epoch, hm.own, fun n c hn hc => ?_, hm.alone⟩
      have hc := hm.claims n c hn hc
      rw [hlookup] at hc
      split at hc
      · cases hc
      exact hc
    unfold fight
    split
    · exact ⟨haway.nodeId, haway.vip, haway.epoch, haway.own, haway.claims, haway.alone⟩
    exact haway
  · have hkept : Kept m.claimMap env ls m r.1 := by
      refine ⟨hk.nodeId, hk.vip, hk.epoch, hk.pending, ?_, fun n hn => ?_, hk.suppress, hk.keys, hk.rows⟩
      · rcases hk.own with ⟨hl, ho⟩ | ho
        · rw [hlookup, if_neg hl] at ho
          exact .inl ⟨hl, ho⟩
        · exact .inr ho
      rw [hk.claims n hn, hlookup]
      split <;> rfl
    rcases fight_spec (P := P) r.1.core.myVip r.1.fighters r.1 with ⟨hne, hm⟩ | ⟨hff, ⟨after, he⟩, hfail⟩
    · have haway := hkept.movedAway hm.away
      refine .inl ⟨hkept.beaten hne, ?_⟩
      split
      · exact ⟨haway.nodeId, haway.vip, haway.epoch, haway.own, haway.claims, haway.alone⟩
      exact haway
    have hkept' : Kept m.claimMap env ls m { r.1 with vipRerollRetryAfter := after } :=
      ⟨hkept.nodeId, hkept.vip, hkept.epoch, hkept.pending, hkept.own, hkept.claims, hkept.suppress,
        hkept.keys, hkept.rows⟩
    refine .inr ⟨_, hkept', ?_, fun h => ?_, fun hne hacc =>
      exhausted_of_failed (m := r.1) hacc (hfail hne)⟩
    · rw [hff, Bool.or_false, he]
      cases r.2 with
      | true => simp
      | false => simp [← hkept.pending]
    rw [hff, Bool.or_false] at h
    exact (hf h).resolve_left Bool.false_ne_true

end

end Member

end ConnectUnit
