import Mathlib.Algebra.BigOperators.Group.Finset.Basic
import Mathlib.Algebra.Order.BigOperators.Group.Finset
import ConnectUnit.Rerolls

/-!
# The rank of a member's claims

How far a member is from having heard everything about a node: nothing known ranks highest, a newer claim ranks lower,
and a claim that was dropped and suppressed ranks below the same claim in the map.
-/

open HashMap (lookup_insert_eq lookup_mapVals)

namespace ConnectUnit

variable {c : ClaimRecord} {now : Instant} {m' : Member} {n : String} {r : Member × List MemberOutput}
variable {acc merged : Member × List (ClaimRecord × MergeOutcome)} {ls : List String} {routed : Member × Bool}
variable {fromEp : SocketAddr}

def Body.claims (body : Body GossipJson) : List ClaimRecord := (body.json.bind (·.claims)).getD []

def claimRank (start : Instant) (top : Nat) (n : String) (claim : Option ClaimRecord) (mark : Option Mark) : Nat :=
  match claim with
  | some c => if n ≠ "" ∧ claimVipValid c.vip = true then 2 * (top + 1 - c.vipEpoch) + 1 else 2 * top + 5
  | none =>
    match mark with
    | some s => if start < s.expiresAt then 2 * (top + 1 - s.vipEpoch) else 2 * top + 4
    | none => 2 * top + 4

section
variable {start : Instant} {top : Nat} {n : String} {mark mark' : Option Mark}

theorem claimRank_same {c' : ClaimRecord} (hv : c'.vip = c.vip) (he : c'.vipEpoch = c.vipEpoch) :
    claimRank start top n (some c') mark' = claimRank start top n (some c) mark := by
  unfold claimRank
  dsimp only
  rw [hv, he]

theorem claimRank_newer {r : ClaimRecord} (hn : n ≠ "") (hv : claimVipValid c.vip = true)
    (he : r.vipEpoch < c.vipEpoch)
    (htop : c.vipEpoch ≤ top) : claimRank start top n (some c) mark' < claimRank start top n (some r) mark := by
  unfold claimRank
  dsimp only
  rw [if_pos ⟨hn, hv⟩]
  split <;> omega

theorem claimRank_added (hn : n ≠ "") (hv : claimVipValid c.vip = true) (htop : c.vipEpoch ≤ top)
    (hm : ∀ s, mark = some s → start < s.expiresAt → s.vipEpoch < c.vipEpoch) :
    claimRank start top n (some c) mark' < claimRank start top n none mark := by
  unfold claimRank
  dsimp only
  rw [if_pos ⟨hn, hv⟩]
  cases mark with
  | none => dsimp only; omega
  | some s =>
    dsimp only
    split
    · have := hm s rfl (by assumption)
      omega
    omega

theorem claimRank_none_le : claimRank start top n none mark ≤ 2 * top + 4 := by
  unfold claimRank
  dsimp only
  split
  · split <;> omega
  exact le_rfl

theorem claimRank_dropped {marks : Marks} (hnow : start ≤ now) : claimRank start top n none
    ((installFightSuppress marks n c.vip c.vipEpoch now fightSuppressTtl).lookup n) < claimRank start top n (some c)
    mark := by
  unfold installFightSuppress installMark
  split
  · rename_i hinv
    have hbad : ¬ (n ≠ "" ∧ claimVipValid c.vip = true) := by simpa [imp_iff_or_not, or_comm] using hinv
    have hc : claimRank start top n (some c) mark = 2 * top + 5 := if_neg hbad
    rw [hc]
    exact Nat.lt_of_le_of_lt claimRank_none_le (Nat.lt_succ_self _)
  rename_i hval
  have hok : n ≠ "" ∧ claimVipValid c.vip = true := by simpa [not_or] using hval
  have hlive : start < now + fightSuppressTtl := Nat.lt_of_le_of_lt hnow (Nat.lt_add_of_pos_right (by decide))
  rw [lookup_insert_eq, if_pos rfl]
  unfold claimRank
  dsimp only
  rw [if_pos hok, if_pos hlive]
  exact Nat.lt_succ_self _

end

namespace Member

/-! ## Merging -/

inductive MergeStep (m : Member) (c : ClaimRecord) (now : Instant) : Member × MergeOutcome → Prop
  | ignored (o : MergeOutcome) (ho : o ≠ .accepted) : MergeStep m c now (m, o)
  | renewed (s : Mark) (hs : m.fightSuppress.lookup c.nodeId = some s) (hnow : now < s.expiresAt) (hv : s.vip = c.vip)
      (he : s.vipEpoch = c.vipEpoch) :
      MergeStep m c now ({ m with
        fightSuppress := m.fightSuppress.insert c.nodeId ⟨c.nodeId, c.vip, c.vipEpoch, now + fightSuppressTtl⟩ },
        .blockedByFight)
  | added (hr : m.claimMap.lookup c.nodeId = none)
      (hs : ∀ s, m.fightSuppress.lookup c.nodeId = some s → now < s.expiresAt → s.vip = c.vip →
        s.vipEpoch ≠ c.vipEpoch) :
      MergeStep m c now ({ m with claimMap := m.claimMap.insert c.nodeId c }, .accepted)
  | newer (r : ClaimRecord) (hr : m.claimMap.lookup c.nodeId = some r) (he : r.vipEpoch < c.vipEpoch) :
      MergeStep m c now ({ m with claimMap := m.claimMap.insert c.nodeId c }, .accepted)
  | hinted (r : ClaimRecord) (hr : m.claimMap.lookup c.nodeId = some r) (hv : c.vip = r.vip)
      (he : c.vipEpoch = r.vipEpoch) (hh : c.epHints ≠ [] ∧ c.epHints ≠ r.epHints) :
      MergeStep m c now ({ m with claimMap := m.claimMap.insert c.nodeId { r with epHints := c.epHints } }, .accepted)

section
variable {env : Env} {m : Member} {c : ClaimRecord}

theorem merge_mergeStep (hn : c.nodeId ≠ "") (hv : claimVipValid c.vip = true) :
    MergeStep m c env.now (m.merge c env) := by
  unfold Member.merge mergeClaim
  rw [if_neg (by simp [hn, hv])]
  split
  · exact .ignored _ nofun
  split
  · rename_i hb
    obtain ⟨s, hs, hnow, hsv, hse⟩ := fightSuppressBlocks_eq_true_iff.mp hb
    unfold installFightSuppress installMark
    rw [if_neg (by simp [hn, hv])]
    exact .renewed s hs hnow hsv hse
  rename_i hb
  have hfree : ∀ s, m.fightSuppress.lookup c.nodeId = some s → env.now < s.expiresAt → s.vip = c.vip →
      s.vipEpoch ≠ c.vipEpoch := fun s hs hnow hsv hse =>
    hb (fightSuppressBlocks_eq_true_iff.mpr ⟨s, hs, hnow, hsv, hse⟩)
  dsimp only
  unfold mergeByEpoch
  split
  · rename_i hr
    exact .added hr hfree
  rename_i r hr
  split
  · exact .newer r hr (by assumption)
  split
  · rename_i hsame
    split
    · exact .hinted r hr hsame.2 hsame.1 (by assumption)
    exact .ignored _ nofun
  · exact .ignored _ nofun

def rank (start : Instant) (top : Nat) (m : Member) (n : String) : Nat :=
  claimRank start top n (m.claimMap.lookup n) (m.fightSuppress.lookup n)

def OldOnlyIfSuppressed (start now : Instant) (m : Member) (c : ClaimRecord) : Prop :=
  m.claimMap.lookup c.nodeId = none → ∀ s, m.fightSuppress.lookup c.nodeId = some s → start < s.expiresAt →
    now < s.expiresAt ∧ (c.vipEpoch ≤ s.vipEpoch → s.vip = c.vip ∧ s.vipEpoch = c.vipEpoch)

section
variable {start now : Instant} {top : Nat} {r : Member × MergeOutcome}

section
variable (hs : m'.fightSuppress = m.fightSuppress) (hc : m'.claimMap = m.claimMap.insert n c)
include hs hc

theorem rank_insert
    (hlt : claimRank start top n (some c) (m.fightSuppress.lookup n) ≤ m.rank start top n) (k : String) : m'.rank
    start top k ≤ m.rank start top k := by
  unfold rank
  rw [hs, hc, lookup_insert_eq]
  split
  · rename_i hk
    rw [hk]
    exact hlt
  · exact le_rfl

theorem rank_insert_lt
    (hlt : claimRank start top n (some c) (m.fightSuppress.lookup n) < m.rank start top n) : m'.rank start top n <
    m.rank start top n := by
  have hself : m'.rank start top n = claimRank start top n (some c) (m.fightSuppress.lookup n) := by
    unfold rank
    rw [hs, hc, lookup_insert_eq, if_pos rfl]
  rw [hself]
  exact hlt

end

theorem MergeStep.rank_le (h : MergeStep m c now r) (hn : c.nodeId ≠ "") (hv : claimVipValid c.vip = true)
    (htop : c.vipEpoch ≤ top) (hstart : start ≤ now) (hold : OldOnlyIfSuppressed start now m c) :
    (∀ k, r.1.rank start top k ≤ m.rank start top k) ∧
      (r.2 = .accepted → r.1.rank start top c.nodeId < m.rank start top c.nodeId ∨
        ∃ d, m.claimMap.lookup c.nodeId = some d ∧ c.vip = d.vip ∧ c.vipEpoch = d.vipEpoch ∧
          c.epHints ≠ [] ∧ c.epHints ≠ d.epHints) := by
  cases h with
  | ignored o ho => exact ⟨fun _ => le_rfl, fun h => absurd h ho⟩
  | renewed s hs hnow hsv hse =>
    refine ⟨fun k => ?_, nofun⟩
    unfold rank
    dsimp only
    rw [lookup_insert_eq]
    split
    · rename_i hk
      rw [hk, hs]
      unfold claimRank
      split
      · exact le_rfl
      have hlive : start < s.expiresAt := Nat.lt_of_le_of_lt hstart hnow
      have hlive' : start < now + fightSuppressTtl := Nat.lt_of_le_of_lt hstart (Nat.lt_add_of_pos_right (by decide))
      dsimp only
      rw [if_pos hlive, if_pos hlive', hse]
    · exact le_rfl
  | added hr hs =>
    have hlt :
        claimRank start top c.nodeId (some c) (m.fightSuppress.lookup c.nodeId) < m.rank start top c.nodeId := by
      unfold rank
      rw [hr]
      refine claimRank_added hn hv htop fun s hm hlive => ?_
      obtain ⟨hnow, hle⟩ := hold hr s hm hlive
      by_contra hge
      obtain ⟨hsv, hse⟩ := hle (Nat.not_lt.mp hge)
      exact hs s hm hnow hsv hse
    exact ⟨rank_insert rfl rfl hlt.le, fun _ => .inl (rank_insert_lt rfl rfl hlt)⟩
  | newer d hr he =>
    have hlt :
        claimRank start top c.nodeId (some c) (m.fightSuppress.lookup c.nodeId) < m.rank start top c.nodeId := by
      unfold rank
      rw [hr]
      exact claimRank_newer hn hv he htop
    exact ⟨rank_insert rfl rfl hlt.le, fun _ => .inl (rank_insert_lt rfl rfl hlt)⟩
  | hinted d hr hdv hde hh =>
    refine ⟨rank_insert rfl rfl ?_, fun _ => .inr ⟨d, hr, hdv, hde, hh⟩⟩
    unfold rank
    rw [hr]
    exact Nat.le_of_eq (claimRank_same (c := d) rfl rfl)

end

end

/-! ## The claims of a digest -/

section
variable (start : Instant) (m : Member) (claims : List ClaimRecord)

def NoExpiry (env : Env) : Prop :=
  start ≤ env.now ∧ ∀ n s, m.fightSuppress.lookup n = some s → start < s.expiresAt → env.now < s.expiresAt

def NoHintNews : Prop :=
  ∀ c ∈ claims, c.nodeId ≠ m.core.myNodeId → ∀ d, m.claimMap.lookup c.nodeId = some d → c.vip = d.vip →
    c.vipEpoch = d.vipEpoch → c.epHints = [] ∨ c.epHints = d.epHints

def NoOldLosers (now : Instant) : Prop :=
  ∀ c ∈ claims, c.nodeId ≠ m.core.myNodeId → m.claimMap.lookup c.nodeId = none →
    ∀ s, m.fightSuppress.lookup c.nodeId = some s → now < s.expiresAt → c.vipEpoch ≤ s.vipEpoch →
      s.vip = c.vip ∧ s.vipEpoch = c.vipEpoch

def SameMark (now : Instant) (before after : Option Mark) : Prop :=
  after = before ∨ ∃ s s', before = some s ∧ after = some s' ∧ s'.vip = s.vip ∧ s'.vipEpoch = s.vipEpoch ∧
    now < s.expiresAt ∧ now < s'.expiresAt

structure Heard (top : Nat) (env : Env) (acc : Member × List (ClaimRecord × MergeOutcome)) : Prop where
  core : acc.1.core = m.core
  pending : acc.1.pendingClaimGossip = m.pendingClaimGossip
  marks : ∀ n, SameMark env.now (m.fightSuppress.lookup n) (acc.1.fightSuppress.lookup n)
  known : ∀ n, acc.1.claimMap.lookup n = none → m.claimMap.lookup n = none
  le : ∀ n, acc.1.rank start top n ≤ m.rank start top n
  news : (∀ n, acc.1.claimMap.lookup n = m.claimMap.lookup n) ∧ (∀ p ∈ acc.2, p.2 ≠ .accepted) ∨
    ∃ c ∈ claims, c.nodeId ≠ m.core.myNodeId ∧ acc.1.rank start top c.nodeId < m.rank start top c.nodeId

end

section
variable {P : Primitives} {start : Instant} {top : Nat} {env : Env} {m : Member} {claims : List ClaimRecord}

theorem MergeStep.frame {a : Member} {r : Member × MergeOutcome} (h : MergeStep a c now r) : r.1.core = a.core ∧
    r.1.pendingClaimGossip = a.pendingClaimGossip ∧
    (∀ n, SameMark now (a.fightSuppress.lookup n) (r.1.fightSuppress.lookup n)) ∧
    (∀ n, r.1.claimMap.lookup n = none → a.claimMap.lookup n = none) ∧
    (r.2 ≠ .accepted → r.1.claimMap = a.claimMap) := by
  have hinsert :
      ∀ (d : ClaimRecord) n, (a.claimMap.insert c.nodeId d).lookup n = none → a.claimMap.lookup n = none := by
    intro d n hn
    rw [lookup_insert_eq] at hn
    split at hn
    · cases hn
    exact hn
  cases h with
  | ignored o ho => exact ⟨rfl, rfl, fun _ => .inl rfl, fun _ => id, fun _ => rfl⟩
  | renewed s hs hnow hsv hse =>
    refine ⟨rfl, rfl, fun n => ?_, fun _ => id, fun _ => rfl⟩
    by_cases hn : n = c.nodeId
    · refine .inr ⟨s, _, hn ▸ hs, (lookup_insert_eq ..).trans (if_pos hn), hsv.symm, hse.symm, hnow, ?_⟩
      exact Nat.lt_add_of_pos_right (by decide)
    exact .inl ((lookup_insert_eq ..).trans (if_neg hn))
  | added => exact ⟨rfl, rfl, fun _ => .inl rfl, hinsert _, fun h => absurd rfl h⟩
  | newer => exact ⟨rfl, rfl, fun _ => .inl rfl, hinsert _, fun h => absurd rfl h⟩
  | hinted => exact ⟨rfl, rfl, fun _ => .inl rfl, hinsert _, fun h => absurd rfl h⟩

theorem SameMark.trans {a b c : Option Mark} (h : SameMark now a b) (h' : SameMark now b c) : SameMark now a c := by
  rcases h with rfl | ⟨s, t, rfl, rfl, hv, he, hs, ht⟩
  · exact h'
  rcases h' with rfl | ⟨t', u, ht', rfl, hv', he', -, hu⟩
  · exact .inr ⟨s, t, rfl, rfl, hv, he, hs, ht⟩
  cases ht'
  exact .inr ⟨s, u, rfl, rfl, hv'.trans hv, he'.trans he, hs, hu⟩

theorem Heard.old (h : Heard start m claims top env acc)
    (hexp : NoExpiry start m env) (hlosers : NoOldLosers m claims env.now) (hc : c ∈ claims)
    (hne : c.nodeId ≠ m.core.myNodeId) : OldOnlyIfSuppressed start env.now acc.1 c := by
  intro hr s hs hlive
  have hold := hlosers c hc hne (h.known _ hr)
  rcases h.marks c.nodeId with he | ⟨t, t', ht, ht', hv, he, hnow, hnow'⟩
  · rw [he] at hs
    have hnow := hexp.2 _ s hs hlive
    exact ⟨hnow, hold s hs hnow⟩
  cases ht'.symm.trans hs
  refine ⟨hnow', fun hle => ?_⟩
  rw [hv, he]
  exact hold t ht hnow (he ▸ hle)

variable (P) in
theorem Heard.step (h : Heard start m claims top env acc) (hexp : NoExpiry start m env) (hhints : NoHintNews m claims)
    (hlosers : NoOldLosers m claims env.now) (hc : c ∈ claims) (htop : c.vipEpoch ≤ top) : Heard start m claims top
    env (gossipClaim P env acc c) := by
  unfold gossipClaim
  dsimp only
  split
  · exact h
  rename_i hgood
  rw [Bool.or_eq_true, Bool.or_eq_true, not_or, not_or, decide_eq_true_eq, decide_eq_true_eq, h.core,
    Bool.not_eq_true', Bool.not_eq_false] at hgood
  obtain ⟨⟨hn, hacc⟩, hne⟩ := hgood
  have hm : MergeStep acc.1 c env.now (acc.1.merge c env) := merge_mergeStep hn (claimVipValid_of_accept hacc)
  obtain ⟨hle, hlt⟩ := hm.rank_le hn (claimVipValid_of_accept hacc) htop hexp.1 (h.old hexp hlosers hc hne)
  obtain ⟨hcore, hpend, hmarks, hknown, hsame⟩ := hm.frame
  generalize acc.1.merge c env = r at hle hlt hcore hpend hmarks hknown hsame ⊢
  refine ⟨hcore.trans h.core, hpend.trans h.pending, fun n => (h.marks n).trans (hmarks n),
    fun n hr => h.known n (hknown n hr), fun n => (hle n).trans (h.le n), ?_⟩
  rcases h.news with ⟨hmap, hnone⟩ | ⟨d, hd, hdne, hdlt⟩
  · by_cases ho : r.2 = .accepted
    · rcases hlt ho with hlt | ⟨d, hd, hv, he, hh, hh'⟩
      · exact .inr ⟨c, hc, hne, hlt.trans_le (h.le _)⟩
      · exact ((hhints c hc hne d (hmap _ ▸ hd) hv he).elim hh hh').elim
    · refine .inl ⟨fun n => by rw [hsame ho, hmap n], fun p hp => ?_⟩
      dsimp only at hp
      split at hp
      · exact hnone p hp
      rcases List.mem_append.mp hp with hp | hp
      · exact hnone p hp
      cases List.mem_singleton.mp hp
      exact ho
  · exact .inr ⟨d, hd, hdne, (hle _).trans_lt hdlt⟩

variable (P) in
theorem heard_foldl (hexp : NoExpiry start m env) (hhints : NoHintNews m claims)
    (hlosers : NoOldLosers m claims env.now) (htop : ∀ c ∈ claims, c.vipEpoch ≤ top) :
    Heard start m claims top env (claims.foldl (gossipClaim P env) (m, [])) := by
  have hstart : Heard start m claims top env (m, []) :=
    ⟨rfl, rfl, fun _ => .inl rfl, fun _ => id, fun _ => le_rfl, Or.inl ⟨fun _ => rfl, nofun⟩⟩
  exact List.foldlRecOn claims _ hstart fun acc h c hc => h.step P hexp hhints hlosers hc (htop c hc)

/-! ## Settling -/

variable (start top) in
theorem Kept.rank (h : Kept m.claimMap env ls m m') (hls : ∀ l ∈ ls, ∃ c, m.claimMap.lookup l = some c)
    (hstart : start ≤ env.now) (hn : n ≠ m.core.myNodeId) : if n ∈ ls then m'.rank start top n < m.rank start top n
    else m'.rank start top n = m.rank start top n := by
  unfold Member.rank
  rw [h.claims n hn, h.suppress n hn]
  split
  · rename_i hl
    obtain ⟨c, hc⟩ := hls n hl
    unfold suppressed
    rw [hc]
    exact claimRank_dropped hstart
  · rfl

end

/-! ## Routes and the answer -/

section
variable {W : WireText} {env : Env} {m : Member}

theorem updateRoute_core (vip : String) (ep : SocketAddr) (n : String) (env : Env) :
    (m.updateRoute vip ep n env).core.myNodeId = m.core.myNodeId ∧ (m.updateRoute vip ep n env).core.myVip =
    m.core.myVip ∧ (m.updateRoute vip ep n env).core.vipEpoch = m.core.vipEpoch := by
  unfold Member.updateRoute Engine.updateRoute
  dsimp only
  split <;> exact ⟨rfl, rfl, rfl⟩

structure SameClaims (m m' : Member) : Prop where
  nodeId : m'.core.myNodeId = m.core.myNodeId
  vip : m'.core.myVip = m.core.myVip
  epoch : m'.core.vipEpoch = m.core.vipEpoch
  claims : m'.claimMap = m.claimMap
  suppress : m'.fightSuppress = m.fightSuppress
  pending : m'.pendingClaimGossip = m.pendingClaimGossip

variable (W env) in
theorem gossipRoutes_spec (j : GossipJson) (len : Nat) (fromEp : SocketAddr)
    (routes : List (ClaimRecord × MergeOutcome)) (acc : Member × Bool) : SameClaims acc.1
    (routes.foldl (gossipRoute W j len fromEp env) acc).1 ∧ (routes.foldl (gossipRoute W j len fromEp env) acc).2 =
    (acc.2 || routes.any (·.2 = .accepted)) := by
  induction routes generalizing acc with
  | nil => exact ⟨⟨rfl, rfl, rfl, rfl, rfl, rfl⟩, (Bool.or_false _).symm⟩
  | cons p routes ih =>
    have hstep : SameClaims acc.1 (gossipRoute W j len fromEp env acc p).1 ∧
        (gossipRoute W j len fromEp env acc p).2 = (acc.2 || p.2 = .accepted) := by
      unfold gossipRoute
      dsimp only
      split
      · exact ⟨⟨rfl, rfl, rfl, rfl, rfl, rfl⟩, rfl⟩
      split
      · obtain ⟨hn, hv, he⟩ := updateRoute_core (m := acc.1) p.1.vip (by assumption) p.1.nodeId env
        exact ⟨⟨hn, hv, he, rfl, rfl, rfl⟩, rfl⟩
      exact ⟨⟨rfl, rfl, rfl, rfl, rfl, rfl⟩, rfl⟩
    obtain ⟨h, hf⟩ := ih (gossipRoute W j len fromEp env acc p)
    obtain ⟨h1, hf1⟩ := hstep
    refine ⟨⟨h.nodeId.trans h1.nodeId, h.vip.trans h1.vip, h.epoch.trans h1.epoch, h.claims.trans h1.claims,
      h.suppress.trans h1.suppress, h.pending.trans h1.pending⟩, ?_⟩
    rw [List.foldl_cons, hf, hf1, List.any_cons, Bool.or_assoc]

def FromMap (map : ClaimMap) (n : String) (c : ClaimRecord) : Prop :=
  ∃ d, map.lookup n = some d ∧ c.nodeId = d.nodeId ∧ c.vip = d.vip ∧ c.vipEpoch = d.vipEpoch

theorem enrich_nodeId {rt : RoutingTable} : (enrich W rt c).nodeId = c.nodeId := by
  unfold enrich
  split
  · rfl
  split
  · split <;> rfl
  rfl

theorem fromMap_enrich {rt : RoutingTable}
    (h : (m.claimMap.mapVals (enrich W rt)).lookup n = some c) : FromMap m.claimMap n c := by
  rw [lookup_mapVals, Option.map_eq_some_iff] at h
  obtain ⟨d, hd, rfl⟩ := h
  exact ⟨d, hd, enrich_nodeId, enrich_same rt d⟩

structure Announced (m : Member) (r : Member × List MemberOutput) : Prop where
  core : r.1.core = m.core
  suppress : r.1.fightSuppress = m.fightSuppress
  pending : r.1.pendingClaimGossip = m.pendingClaimGossip
  claims : ∀ n c, r.1.claimMap.lookup n = some c → FromMap m.claimMap n c
  known : ∀ n, r.1.claimMap.lookup n = none → m.claimMap.lookup n = none
  copies : r.2.length ≤ 8
  digest : ∀ o ∈ r.2, ∃ dest body, o = .claimGossip dest body ∧
    ∀ c ∈ body.claims, c = m.ownClaim ∨ ∃ n, FromMap m.claimMap n c

theorem mem_buildGossipDigestRotated {own : ClaimRecord} {map : ClaimMap} {tombs : Marks}
    {maxOthers startIdx : Nat} (h : c ∈ buildGossipDigestRotated own map tombs now maxOthers startIdx) :
    c = own ∨ ∃ n, map.lookup n = some c := by
  unfold buildGossipDigestRotated rotated at h
  rcases List.mem_cons.mp h with h | h
  · exact .inl h
  have hmem := List.mem_of_mem_take h
  rw [List.mem_rotate, List.mem_insertionSort] at hmem
  obtain ⟨e, he, rfl⟩ := List.mem_map.mp (List.mem_filter.mp hmem).1
  exact .inr ⟨e.1, (HashMap.lookup_eq_some_iff map).mpr he⟩

variable (W env) in
theorem broadcast_announced (m : Member) : Announced m (broadcastClaimGossip W m env) := by
  have hself : ∀ n c, m.claimMap.lookup n = some c → FromMap m.claimMap n c := fun n c h => ⟨c, h, rfl, rfl, rfl⟩
  have hknown : ∀ n, (m.claimMap.mapVals (enrich W m.core.routing)).lookup n = none → m.claimMap.lookup n = none := by
    intro n h
    rw [lookup_mapVals, Option.map_eq_none_iff] at h
    exact h
  unfold broadcastClaimGossip
  split
  · exact ⟨rfl, rfl, rfl, hself, fun _ => id, Nat.zero_le _, nofun⟩
  dsimp only
  split
  · exact ⟨rfl, rfl, rfl, fun _ _ => fromMap_enrich, hknown, Nat.zero_le _, nofun⟩
  refine ⟨rfl, rfl, rfl, fun _ _ => fromMap_enrich, hknown, ?_, fun o ho => ?_⟩
  · rw [List.length_map]
    exact List.length_take_le _ _
  obtain ⟨dest, -, rfl⟩ := List.mem_map.mp ho
  refine ⟨dest, _, rfl, fun c hc => ?_⟩
  rcases mem_buildGossipDigestRotated (List.mem_of_mem_take hc) with h | ⟨n, h⟩
  · exact .inl h
  exact .inr ⟨n, fromMap_enrich h⟩

theorem Announced.rank (h : Announced m r) {start : Instant} {top : Nat} (n : String) : r.1.rank start top n = m.rank
    start top n := by
  unfold Member.rank
  rw [h.suppress]
  cases hc : r.1.claimMap.lookup n with
  | none => rw [h.known n hc]
  | some c =>
    obtain ⟨d, hd, -, hv, he⟩ := h.claims n c hc
    rw [hd]
    exact claimRank_same hv he

end

/-! ## A whole digest -/

section
variable {P : Primitives} {W : WireText} {start : Instant} {top : Nat} {nodes : Finset String} {env : Env}
  {m : Member}
  {claims : List ClaimRecord}

def weight (start : Instant) (top : Nat) (nodes : Finset String) (m : Member) : Nat :=
  ∑ n ∈ nodes.erase m.core.myNodeId, m.rank start top n + m.pendingClaimGossip.toNat

structure Inside (nodes : Finset String) (top : Nat) (m : Member) : Prop where
  own : m.core.myNodeId ∈ nodes ∧ m.core.vipEpoch ≤ top
  claims : ∀ n c, m.claimMap.lookup n = some c → n ∈ nodes ∧ c.nodeId ∈ nodes ∧ c.vipEpoch ≤ top

theorem MergeStep.inside {r : Member × MergeOutcome} (h : MergeStep m c now r)
    (hm : Inside nodes top m) (hc : c.nodeId ∈ nodes ∧ c.vipEpoch ≤ top) : Inside nodes top r.1 := by
  have hinsert : ∀ d : ClaimRecord, d.nodeId ∈ nodes ∧ d.vipEpoch ≤ top → ∀ n e,
      (m.claimMap.insert c.nodeId d).lookup n = some e → n ∈ nodes ∧ e.nodeId ∈ nodes ∧ e.vipEpoch ≤ top := by
    intro d hd n e he
    rw [lookup_insert_eq] at he
    split at he
    · rename_i hn
      cases he
      exact ⟨hn ▸ hc.1, hd⟩
    · exact hm.claims n e he
  cases h with
  | ignored => exact hm
  | renewed => exact ⟨hm.own, hm.claims⟩
  | added => exact ⟨hm.own, hinsert c hc⟩
  | newer => exact ⟨hm.own, hinsert c hc⟩
  | hinted d hr => exact ⟨hm.own, hinsert _ (hm.claims _ d hr).2⟩

variable (P env) in
theorem inside_merged (claims : List ClaimRecord) (hc : ∀ c ∈ claims, c.nodeId ∈ nodes ∧ c.vipEpoch ≤ top)
    (acc : Member × List (ClaimRecord × MergeOutcome)) (h : Inside nodes top acc.1) :
    Inside nodes top (claims.foldl (gossipClaim P env) acc).1 := by
  refine List.foldlRecOn (motive := fun acc : Member × _ => Inside nodes top acc.1) claims _ h fun acc h c hmem => ?_
  unfold gossipClaim
  dsimp only
  split
  · exact h
  rename_i hgood
  rw [Bool.or_eq_true, Bool.or_eq_true, not_or, not_or, decide_eq_true_eq, Bool.not_eq_true',
    Bool.not_eq_false] at hgood
  have hm : MergeStep acc.1 c env.now (acc.1.merge c env) :=
    merge_mergeStep hgood.1.1 (claimVipValid_of_accept hgood.1.2)
  exact hm.inside h (hc c hmem)

theorem Kept.inside {pre : ClaimMap} (h : Kept pre env ls m m') (hm : Inside nodes top m) : Inside nodes top m' := by
  refine ⟨h.nodeId ▸ h.epoch ▸ hm.own, fun n c hc => ?_⟩
  by_cases hn : n = m.core.myNodeId
  · rw [hn] at hc ⊢
    rcases h.own with ⟨-, ho⟩ | ho
    · exact hm.claims _ c (ho ▸ hc)
    cases ho.symm.trans hc
    exact ⟨hm.own.1, hm.own⟩
  · exact hm.claims n c (h.lookup hn hc).2

theorem Announced.inside (h : Announced m r) (hm : Inside nodes top m) : Inside nodes top r.1 := by
  refine ⟨h.core ▸ hm.own, fun n c hc => ?_⟩
  obtain ⟨d, hd, hn, -, he⟩ := h.claims n c hc
  rw [hn, he]
  exact hm.claims n d hd

theorem Announced.digest_inside (h : Announced m r) (hm : Inside nodes top m) {o : MemberOutput} (ho : o ∈ r.2) : ∃
    dest body, o = .claimGossip dest body ∧ ∀ c ∈ body.claims, c.nodeId ∈ nodes ∧ c.vipEpoch ≤ top := by
  obtain ⟨dest, body, he, hclaims⟩ := h.digest o ho
  refine ⟨dest, body, he, fun c hc => ?_⟩
  rcases hclaims c hc with rfl | ⟨n, d, hd, hn, -, hep⟩
  · exact hm.own
  rw [hn, hep]
  exact (hm.claims n d hd).2

section
variable (hn : m'.core.myNodeId = m.core.myNodeId) (hle : ∀ n, n ≠ m.core.myNodeId → m'.rank start top n ≤ m.rank start top n)
include hn hle

theorem weight_le
    (hp : m'.pendingClaimGossip = m.pendingClaimGossip) : m'.weight start top nodes ≤ m.weight start top nodes := by
  unfold weight
  rw [hn, hp]
  exact Nat.add_le_add_right (Finset.sum_le_sum fun n h => hle n (Finset.ne_of_mem_erase h)) _

theorem weight_lt (hp : m'.pendingClaimGossip = false)
    (hlt : m.pendingClaimGossip = true ∨ ∃ n ∈ nodes, n ≠ m.core.myNodeId ∧ m'.rank start top n < m.rank start top n)
    : m'.weight start top nodes < m.weight start top nodes := by
  unfold weight
  rw [hn, hp]
  rcases hlt with hp' | ⟨n, hmem, hne, hlt⟩
  · rw [hp']
    exact Nat.add_lt_add_of_le_of_lt (Finset.sum_le_sum fun n h => hle n (Finset.ne_of_mem_erase h)) Nat.zero_lt_one
  refine Nat.add_lt_add_of_lt_of_le ?_ (Nat.zero_le _)
  exact Finset.sum_lt_sum (fun n h => hle n (Finset.ne_of_mem_erase h)) ⟨n, Finset.mem_erase.mpr ⟨hne, hmem⟩, hlt⟩

end

structure Reacted (start : Instant) (top : Nat) (nodes : Finset String) (m : Member)
    (r : Member × List MemberOutput) :
    Prop where
  nodeId : r.1.core.myNodeId = m.core.myNodeId
  inside : Inside nodes top r.1
  copies : r.2.length ≤ 8
  digest : ∀ o ∈ r.2, ∃ dest body, o = .claimGossip dest body ∧ ∀ c ∈ body.claims, c.nodeId ∈ nodes ∧ c.vipEpoch ≤ top
  weight : r.2 = [] ∧ r.1.weight start top nodes ≤ m.weight start top nodes ∨
    r.1.weight start top nodes < m.weight start top nodes

theorem Heard.settled (h : Heard start m claims top env merged) (hk : Kept merged.1.claimMap env ls merged.1 m')
    (hls : ∀ l ∈ ls, ∃ c, merged.1.claimMap.lookup l = some c) (hstart : start ≤ env.now)
    (hin : Inside nodes top merged.1) (hc : ∀ c ∈ claims, c.nodeId ∈ nodes) :
    (∀ n, n ≠ m.core.myNodeId → m'.rank start top n ≤ m.rank start top n) ∧
      ((∃ l ∈ ls, l ≠ m.core.myNodeId) ∨ (∃ p ∈ merged.2, p.2 = .accepted) →
        ∃ n ∈ nodes, n ≠ m.core.myNodeId ∧ m'.rank start top n < m.rank start top n) := by
  have hrank : ∀ n, n ≠ m.core.myNodeId → _ := fun n hn => hk.rank start top hls hstart (h.core ▸ hn)
  have hle : ∀ n, n ≠ m.core.myNodeId → m'.rank start top n ≤ merged.1.rank start top n := by
    intro n hn
    have hr := hrank n hn
    split at hr
    · exact hr.le
    exact hr.le
  refine ⟨fun n hn => (hle n hn).trans (h.le n), fun hnews => ?_⟩
  rcases hnews with ⟨l, hl, hne⟩ | ⟨p, hp, ho⟩
  · obtain ⟨c, hcl⟩ := hls l hl
    have hr := hrank l hne
    rw [if_pos hl] at hr
    exact ⟨l, (hin.claims l c hcl).1, hne, hr.trans_le (h.le l)⟩
  rcases h.news with ⟨-, hnone⟩ | ⟨c, hcm, hne, hlt⟩
  · exact absurd ho (hnone p hp)
  exact ⟨c.nodeId, hc c hcm, hne, (hle _ hne).trans_lt hlt⟩

structure Digested (start : Instant) (top : Nat) (nodes : Finset String) (m : Member) (routed : Member × Bool) :
    Prop where
  nodeId : routed.1.core.myNodeId = m.core.myNodeId
  inside : Inside nodes top routed.1
  le : ∀ n, n ≠ m.core.myNodeId → routed.1.rank start top n ≤ m.rank start top n
  quiet : routed.1.pendingClaimGossip = false → m.pendingClaimGossip = false
  news : (routed.2 || routed.1.pendingClaimGossip) = true → m.pendingClaimGossip = true ∨
    ∃ n ∈ nodes, n ≠ m.core.myNodeId ∧ routed.1.rank start top n < m.rank start top n

theorem Heard.digested (h : Heard start m claims top env merged) (hk : Kept merged.1.claimMap env ls merged.1 m')
    (hls : ∀ l ∈ ls, ∃ c, merged.1.claimMap.lookup l = some c) (hstart : start ≤ env.now)
    (hin : Inside nodes top merged.1) (hc : ∀ c ∈ claims, c.nodeId ∈ nodes) {changed : Bool}
    (hchanged : changed = true → ∃ l ∈ ls, l ≠ m.core.myNodeId)
    (hroutes : SameClaims { m' with pendingClaimGossip := m.pendingClaimGossip || changed } routed.1)
    (hflag : routed.2 = (changed || merged.2.any (·.2 = .accepted))) : Digested start top nodes m routed := by
  have hrank : ∀ n, routed.1.rank start top n = m'.rank start top n := fun n => by
    unfold rank
    rw [hroutes.claims, hroutes.suppress]
  obtain ⟨hle, hnews⟩ := h.settled hk hls hstart hin hc
  have hin' := hk.inside hin
  refine ⟨?_, ⟨?_, ?_⟩, fun n hn => (hrank n).trans_le (hle n hn), fun hp => ?_, fun hcond => ?_⟩
  · rw [hroutes.nodeId, ← h.core]
    exact hk.nodeId
  · rw [hroutes.nodeId, hroutes.epoch]
    exact hin'.own
  · rw [hroutes.claims]
    exact hin'.claims
  · rw [hroutes.pending] at hp
    exact (Bool.or_eq_false_iff.mp hp).1
  · by_cases hp : m.pendingClaimGossip = true
    · exact .inl hp
    · rw [hflag, hroutes.pending, Bool.eq_false_iff.mpr hp, Bool.false_or, Bool.or_right_comm, Bool.or_self,
        Bool.or_eq_true] at hcond
      have hcause : (∃ l ∈ ls, l ≠ m.core.myNodeId) ∨ ∃ p ∈ merged.2, p.2 = .accepted := by
        rcases hcond with hs | ha
        · exact .inl (hchanged hs)
        obtain ⟨p, hp, ho⟩ := List.any_eq_true.mp ha
        exact .inr ⟨p, hp, of_decide_eq_true ho⟩
      obtain ⟨n, hmem, hne, hlt⟩ := hnews hcause
      exact .inr ⟨n, hmem, hne, (hrank n).trans_lt hlt⟩

variable (W env) in
theorem Digested.reacted (h : Digested start top nodes m routed) :
    Reacted start top nodes m (if routed.2 || routed.1.pendingClaimGossip then
      broadcastClaimGossip W { routed.1 with pendingClaimGossip := false } env else (routed.1, [])) := by
  split
  · rename_i hcond
    have hann := broadcast_announced W env { routed.1 with pendingClaimGossip := false }
    generalize broadcastClaimGossip W _ env = r at hann
    have hin : Inside nodes top { routed.1 with pendingClaimGossip := false } := ⟨h.inside.own, h.inside.claims⟩
    have hr : ∀ n, r.1.rank start top n = routed.1.rank start top n := hann.rank
    have hown : r.1.core.myNodeId = m.core.myNodeId := (congrArg (·.myNodeId) hann.core).trans h.nodeId
    refine ⟨hown, hann.inside hin, hann.copies, fun o => hann.digest_inside hin, .inr ?_⟩
    refine weight_lt hown (fun n hn => (hr n).trans_le (h.le n hn)) hann.pending ?_
    rcases h.news hcond with hp | ⟨n, hmem, hne, hlt⟩
    · exact .inl hp
    exact .inr ⟨n, hmem, hne, (hr n).trans_lt hlt⟩
  rename_i hcond
  rw [Bool.or_eq_true, not_or, Bool.not_eq_true, Bool.not_eq_true] at hcond
  refine ⟨h.nodeId, h.inside, Nat.zero_le _, nofun, .inl ⟨rfl, weight_le h.nodeId h.le ?_⟩⟩
  rw [hcond.2, h.quiet hcond.2]

theorem gossipClaims_reacted (hexp : NoExpiry start m env) (hhints : NoHintNews m claims)
    (hlosers : NoOldLosers m claims env.now) (hc : ∀ c ∈ claims, c.nodeId ∈ nodes ∧ c.vipEpoch ≤ top)
    (hin : Inside nodes top m) {j : GossipJson}
    (hvip : (m.gossipClaims P W j claims fromEp env).1.core.myVip = m.core.myVip) :
    Reacted start top nodes m (m.gossipClaims P W j claims fromEp env) := by
  have hheard := heard_foldl P hexp hhints hlosers fun c h => (hc c h).2
  have hmerged := inside_merged P env claims hc (m, []) hin
  unfold Member.gossipClaims at hvip ⊢
  dsimp only at hvip ⊢
  generalize claims.foldl (gossipClaim P env) (m, []) = merged at hheard hmerged hvip ⊢
  obtain ⟨hroutes, hflag⟩ := gossipRoutes_spec W env j claims.length fromEp merged.2
    (merged.1.applyClaimSettleAndLocalFight P env)
  have hsettle := settle_outcome P env merged.1
  generalize merged.1.applyClaimSettleAndLocalFight P env = settled at hroutes hflag hvip hsettle ⊢
  generalize merged.2.foldl (gossipRoute W j claims.length fromEp env) settled = routed at hroutes hflag hvip ⊢
  rcases hsettle with ⟨-, hmoved⟩ | ⟨m', hk, hset, hloser, -⟩
  · refine absurd ?_ hmoved.vip
    have hrouted : routed.1.core.myVip = m.core.myVip := by
      split at hvip
      · exact congrArg (·.myVip) (broadcast_announced W env { routed.1 with pendingClaimGossip := false }).core ▸ hvip
      exact hvip
    rw [← hroutes.vip, hrouted, hheard.core]
  rw [hset, hheard.pending] at hroutes
  rw [hheard.core] at hloser
  exact (hheard.digested hk (fun l => mem_losers) hexp.1 hmerged (fun c h => (hc c h).1) hloser hroutes hflag).reacted
    W env

theorem handleClaimGossipBody_reacted {body : Body GossipJson} (hexp : NoExpiry start m env)
    (hhints : NoHintNews m body.claims) (hlosers : NoOldLosers m body.claims env.now)
    (hc : ∀ c ∈ body.claims, c.nodeId ∈ nodes ∧ c.vipEpoch ≤ top) (hin : Inside nodes top m)
    (hvip : (m.handleClaimGossipBody P W body fromEp env).1.core.myVip = m.core.myVip) :
    Reacted start top nodes m (m.handleClaimGossipBody P W body fromEp env) := by
  have hidle : ∀ tombs, Reacted start top nodes m ({ m with leaveTombs := tombs }, []) := fun tombs =>
    ⟨rfl, ⟨hin.own, hin.claims⟩, Nat.zero_le _, nofun, .inl ⟨rfl, le_rfl⟩⟩
  unfold Member.handleClaimGossipBody at hvip ⊢
  split
  · exact hidle m.leaveTombs
  rename_i hlen
  rw [if_neg hlen] at hvip
  cases hj : body.json with
  | none => exact hidle m.leaveTombs
  | some j =>
    rw [hj] at hvip
    dsimp only at hvip ⊢
    rw [foldl_installLeave_eq] at hvip ⊢
    cases hcl : j.claims with
    | none => exact hidle _
    | some claims =>
      rw [hcl] at hvip
      dsimp only at hvip ⊢
      have hbody : body.claims = claims := by
        unfold Body.claims
        rw [hj, Option.bind_some, hcl, Option.getD_some]
      rw [hbody] at hhints hlosers hc
      have hr := gossipClaims_reacted (m := { m with leaveTombs := installAll env.now m.leaveTombs _ }) hexp hhints
        hlosers hc ⟨hin.own, hin.claims⟩ hvip
      exact ⟨hr.nodeId, hr.inside, hr.copies, hr.digest, hr.weight⟩

end

end Member

end ConnectUnit
