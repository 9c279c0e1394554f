import ConnectUnit.Settling

/-!
# Observers of the same claims

Settling forgets the claim of a loser together with its epoch, so what an observer ends with can depend on the order
in which it gets the claims.
-/

namespace ConnectUnit

variable {map : ClaimMap} {n vip : String} {e : Nat} {seen claims l : List ClaimRecord}

section
variable (q : String → String → Nat → Prop)

def NewestClaim (n vip : String) (e : Nat) : Prop := q n vip e ∧ ∀ vip' e', q n vip' e' → e' ≤ e

def FinalClaim (n vip : String) (e : Nat) : Prop :=
  NewestClaim q n vip e ∧ ∀ k e', NewestClaim q k vip e' → n ≤ k

/-- A claim that is not final does not beat a final one, and has a final one to go for. -/
def Harmless : Prop :=
  ∀ n vip e, q n vip e → ¬ FinalClaim q n vip e →
    (∀ k e', FinalClaim q k vip e' → k ≤ n) ∧
      ((∃ vip' e', FinalClaim q n vip' e') ∨ ∃ k e', FinalClaim q k vip e' ∧ k < n)

/-- Node and epoch determine the address. -/
def Deterministic : Prop := ∀ n e vip vip', q n vip e → q n vip' e → vip = vip'

end

/-- The claims among the messages that are well formed. -/
def Offered (l : List ClaimRecord) (n vip : String) (e : Nat) : Prop :=
  n ≠ "" ∧ claimVipValid vip = true ∧ ∃ c ∈ l, c.nodeId = n ∧ c.vip = vip ∧ c.vipEpoch = e

/-- The map has a claim of the node for the address with the epoch. -/
def Shows (map : ClaimMap) (n vip : String) (e : Nat) : Prop :=
  ∃ c, map.lookup n = some c ∧ c.vip = vip ∧ c.vipEpoch = e

namespace Member

/-- A claim is merged, and contested addresses are settled. -/
def observe (P : Primitives) (m : Member) (a : Env × ClaimRecord) : Member :=
  ((m.merge a.2 a.1).1.applyClaimSettleAndLocalFight P a.1).1

section
variable {P : Primitives} {q : String → String → Nat → Prop} {m : Member} {env : Env} {c : ClaimRecord}

structure View (q : String → String → Nat → Prop) (seen : List ClaimRecord) (m : Member) : Prop where
  away : NoContest q m
  tombs : m.leaveTombs = ∅
  suppress : ∀ n mark, m.fightSuppress.lookup n = some mark → ¬ FinalClaim q n mark.vip mark.vipEpoch
  finals : ∀ c ∈ seen, FinalClaim q c.nodeId c.vip c.vipEpoch → Shows m.claimMap c.nodeId c.vip c.vipEpoch

/-! ## Merging -/

theorem shows_mergeByEpoch_other (h : Shows map n vip e)
    (hn : n ≠ c.nodeId) : Shows (mergeByEpoch map c).1 n vip e := by
  obtain ⟨r, hr, hv⟩ := h
  refine ⟨r, ?_, hv⟩
  unfold mergeByEpoch
  split
  · rw [HashMap.lookup_insert_eq, if_neg hn]
    exact hr
  split
  · rw [HashMap.lookup_insert_eq, if_neg hn]
    exact hr
  split
  · split
    · rw [HashMap.lookup_insert_eq, if_neg hn]
      exact hr
    · exact hr
  · exact hr

theorem shows_mergeByEpoch_self (h : Shows map c.nodeId vip e)
    (he : c.vipEpoch ≤ e) : Shows (mergeByEpoch map c).1 c.nodeId vip e := by
  obtain ⟨r, hr, hv, hre⟩ := h
  unfold mergeByEpoch
  rw [hr]
  dsimp only
  rw [if_neg (by omega)]
  split
  · split
    · exact ⟨{ r with epHints := c.epHints }, by rw [HashMap.lookup_insert_eq, if_pos rfl], hv, hre⟩
    · exact ⟨r, hr, hv, hre⟩
  · exact ⟨r, hr, hv, hre⟩

theorem shows_mergeByEpoch_new (hall : AllClaims q map) (hdet : Deterministic q)
    (hc : NewestClaim q c.nodeId c.vip c.vipEpoch) : Shows (mergeByEpoch map c).1 c.nodeId c.vip c.vipEpoch := by
  cases hr : map.lookup c.nodeId with
  | none =>
    unfold mergeByEpoch
    rw [hr]
    exact ⟨c, by rw [HashMap.lookup_insert_eq, if_pos rfl], rfl, rfl⟩
  | some r =>
    have hq := hall c.nodeId r hr
    rcases Nat.lt_or_eq_of_le (hc.2 r.vip r.vipEpoch hq) with hlt | heq
    · unfold mergeByEpoch
      rw [hr]
      dsimp only
      rw [if_pos hlt]
      exact ⟨c, by rw [HashMap.lookup_insert_eq, if_pos rfl], rfl, rfl⟩
    have hvip : r.vip = c.vip := hdet c.nodeId c.vipEpoch _ _ (heq ▸ hq) hc.1
    exact shows_mergeByEpoch_self ⟨r, hr, hvip, heq⟩ (Nat.le_refl _)

inductive Merged (m : Member) (c : ClaimRecord) : Member → Prop
  | rejected (h : ¬ (c.nodeId ≠ "" ∧ claimVipValid c.vip = true)) : Merged m c m
  | blocked (suppress : Marks) (mark : Mark) (hm : m.fightSuppress.lookup c.nodeId = some mark)
      (hv : mark.vip = c.vip) (he : mark.vipEpoch = c.vipEpoch)
      (hs : ∀ n mk, suppress.lookup n = some mk → m.fightSuppress.lookup n = some mk ∨
        n = c.nodeId ∧ mk.vip = c.vip ∧ mk.vipEpoch = c.vipEpoch) : Merged m c { m with fightSuppress := suppress }
  | merged (hn : c.nodeId ≠ "") (hv : claimVipValid c.vip = true) :
      Merged m c { m with claimMap := (mergeByEpoch m.claimMap c).1 }

theorem merge_spec (ht : m.leaveTombs = ∅) : Merged m c (m.merge c env).1 := by
  have hnone : leaveTombstoneBlocks m.leaveTombs c.nodeId c.vipEpoch env.now = false := by
    rw [ht]
    rfl
  unfold Member.merge mergeClaim
  rw [hnone]
  split
  · rename_i hbad
    refine Merged.rejected fun h => ?_
    simp [h.1, h.2] at hbad
  rename_i hgood
  simp only [Bool.or_eq_true, decide_eq_true_eq, Bool.not_eq_true', not_or, Bool.not_eq_false] at hgood
  rw [if_neg Bool.false_ne_true]
  split
  · rename_i hb
    obtain ⟨mark, hm, -, hv, he⟩ := fightSuppressBlocks_eq_true_iff.mp hb
    exact Merged.blocked _ mark hm hv he fun n mk hmk => lookup_installMark hmk
  · exact Merged.merged hgood.1 hgood.2

theorem View.merge (hdet : Deterministic q) (h : View q seen m)
    (hc : c.nodeId ≠ "" → claimVipValid c.vip = true → q c.nodeId c.vip c.vipEpoch)
    (hvalid : ∀ n vip e, q n vip e → n ≠ "" ∧ claimVipValid vip = true) : View q (seen ++ [c]) (m.merge c env).1 := by
  have hspec : Merged m c (m.merge c env).1 := merge_spec h.tombs
  generalize (m.merge c env).1 = m' at hspec
  have hfinals : ∀ {map : ClaimMap}, (∀ d ∈ seen, FinalClaim q d.nodeId d.vip d.vipEpoch →
      Shows map d.nodeId d.vip d.vipEpoch) → (FinalClaim q c.nodeId c.vip c.vipEpoch →
      Shows map c.nodeId c.vip c.vipEpoch) → ∀ d ∈ seen ++ [c], FinalClaim q d.nodeId d.vip d.vipEpoch →
      Shows map d.nodeId d.vip d.vipEpoch := by
    intro map hseen hnew d hd hf
    rcases List.mem_append.mp hd with hd | hd
    · exact hseen d hd hf
    cases List.mem_singleton.mp hd
    exact hnew hf
  cases hspec with
  | rejected hbad =>
    exact ⟨h.away, h.tombs, h.suppress, hfinals h.finals fun hf => absurd (hvalid _ _ _ hf.1.1) hbad⟩
  | blocked suppress mark hm hv he hs =>
    have hnot : ¬ FinalClaim q c.nodeId c.vip c.vipEpoch := by
      rw [← hv, ← he]
      exact h.suppress c.nodeId mark hm
    refine ⟨⟨h.away.away, h.away.claims⟩, h.tombs, fun n mk hmk => ?_, hfinals h.finals fun hf => absurd hf hnot⟩
    rcases hs n mk hmk with hold | ⟨rfl, hv', he'⟩
    · exact h.suppress n mk hold
    rw [hv', he']
    exact hnot
  | merged hn hv =>
    have hq := hc hn hv
    refine ⟨⟨h.away.away, h.away.claims.mergeByEpoch hq⟩, h.tombs, h.suppress,
      hfinals (fun d hd hf => ?_) fun hf => ?_⟩
    · by_cases hdn : d.nodeId = c.nodeId
      · have hshow := h.finals d hd hf
        have hle := hf.1.2 c.vip c.vipEpoch
        rw [hdn] at hshow hle ⊢
        exact shows_mergeByEpoch_self hshow (hle hq)
      · exact shows_mergeByEpoch_other (h.finals d hd hf) hdn
    · exact shows_mergeByEpoch_new h.away.claims hdet hf.1

/-! ## Settling -/

def NoDuplicates (map : ClaimMap) : Prop :=
  ∀ n k c d, map.lookup n = some c → map.lookup k = some d → c.vip = d.vip → n = k

theorem le_of_final (hh : Harmless q) (hall : AllClaims q map) (hf : FinalClaim q n vip e) {k : String}
    {d : ClaimRecord} (hk : map.lookup k = some d) (hv : d.vip = vip) : n ≤ k := by
  have hq : q k vip d.vipEpoch := hv ▸ hall k d hk
  by_cases hkf : FinalClaim q k vip d.vipEpoch
  · exact hf.2 k d.vipEpoch hkf.1
  exact (hh k vip d.vipEpoch hq hkf).1 n e hf

theorem View.settle (hh : Harmless q) (h : View q seen m) : View q seen (m.applyClaimSettleAndLocalFight P env).1 ∧
    NoDuplicates (m.applyClaimSettleAndLocalFight P env).1.claimMap := by
  obtain ⟨htombs, hmap, hsup⟩ := h.away.settle_spec P env
  refine ⟨⟨h.away.applyClaimSettleAndLocalFight P env, htombs.trans h.tombs, fun n mark hm => ?_, fun c hc hf => ?_⟩,
    ?_⟩
  · rcases hsup n mark hm with hold | ⟨hl, c, hc, hv, he⟩
    · exact h.suppress n mark hold
    · intro hf
      rw [hv, he] at hf
      obtain ⟨c', hc', k, d, hd, hdv, hkn⟩ := mem_losers_iff.mp hl
      have hcc : c' = c := Option.some.inj (hc'.symm.trans hc)
      exact absurd (le_of_final hh h.away.claims hf hd (hdv.trans (congrArg _ hcc))) (not_le.mpr hkn)
  · obtain ⟨r, hr, hv, he⟩ := h.finals c hc hf
    refine ⟨r, ?_, hv, he⟩
    rw [hmap]
    refine lookup_settled.mpr ⟨hr, fun k d hd hdv => ?_⟩
    exact le_of_final hh h.away.claims hf hd (hdv.trans hv)
  intro n k c d hc hd hv
  rw [hmap] at hc hd
  obtain ⟨hc, hnk⟩ := lookup_settled.mp hc
  obtain ⟨hd, hkn⟩ := lookup_settled.mp hd
  exact le_antisymm (hnk k d hd hv.symm) (hkn n c hc hv)

/-! ## Whole runs -/

theorem View.run (hdet : Deterministic q) (hh : Harmless q)
    (hvalid : ∀ n vip e, q n vip e → n ≠ "" ∧ claimVipValid vip = true) {l : List (Env × ClaimRecord)}
    (hl : ∀ c ∈ l.map (·.2), c.nodeId ≠ "" → claimVipValid c.vip = true → q c.nodeId c.vip c.vipEpoch)
    (h : View q seen m) (hd : NoDuplicates m.claimMap) :
    View q (seen ++ l.map (·.2)) (l.foldl (observe P) m) ∧ NoDuplicates (l.foldl (observe P) m).claimMap := by
  induction l generalizing m seen with
  | nil =>
    rw [List.map_nil, List.append_nil]
    exact ⟨h, hd⟩
  | cons a l ih =>
    obtain ⟨hv, hn⟩ := (h.merge hdet (hl a.2 List.mem_cons_self) hvalid).settle hh
    have hrest := ih (fun c hc => hl c (List.mem_cons_of_mem _ hc)) hv hn
    rw [List.append_assoc] at hrest
    exact hrest

/-- An observer that has heard of nobody. -/
structure Fresh (m : Member) : Prop where
  claims : m.claimMap = ∅
  tombs : m.leaveTombs = ∅
  suppress : m.fightSuppress = ∅

theorem shows_iff_final (hdet : Deterministic (Offered claims)) (hh : Harmless (Offered claims)) (hm : Fresh m)
    (haway : ∀ n vip e, Offered claims n vip e → n ≠ m.core.myNodeId ∧ vip ≠ m.core.myVip)
    {l : List (Env × ClaimRecord)} (hl : ∀ n vip e, Offered (l.map (·.2)) n vip e ↔ Offered claims n vip e)
    : Shows (l.foldl (observe P) m).claimMap n vip e ↔ FinalClaim (Offered claims) n vip
    e := by
  have hstart : View (Offered claims) [] m := by
    refine ⟨⟨haway, fun n c hc => ?_⟩, hm.tombs, fun n mark hmark => ?_, nofun⟩
    · rw [hm.claims] at hc
      cases hc
    rw [hm.suppress] at hmark
    cases hmark
  have hnodup : NoDuplicates m.claimMap := by
    intro n k c d hc
    rw [hm.claims] at hc
    cases hc
  obtain ⟨hv, hd⟩ := hstart.run (P := P) hdet hh (fun _ _ _ h => ⟨h.1, h.2.1⟩)
    (fun c hc hn hvip => (hl _ _ _).mp ⟨hn, hvip, c, hc, rfl, rfl, rfl⟩) hnodup
  have hseen : ∀ n vip e, FinalClaim (Offered claims) n vip e → Shows (l.foldl (observe P) m).claimMap n vip e := by
    intro n vip e hf
    obtain ⟨-, -, c, hc, rfl, rfl, rfl⟩ := (hl n vip e).mpr hf.1.1
    exact hv.finals c hc hf
  refine ⟨fun hs => ?_, hseen n vip e⟩
  obtain ⟨c, hc, rfl, rfl⟩ := hs
  by_contra hnot
  rcases (hh n c.vip c.vipEpoch (hv.away.claims n c hc) hnot).2 with ⟨vip', e', hf⟩ | ⟨k, e', hf, hkn⟩
  · -- the node's own final claim would be in its place
    obtain ⟨c', hc', rfl, rfl⟩ := hseen n vip' e' hf
    cases Option.some.inj (hc.symm.trans hc')
    exact hnot hf
  obtain ⟨c', hc', hv', -⟩ := hseen k c.vip e' hf
  cases hd k n c' c hc' hc hv'
  exact lt_irrefl _ hkn

end

/-! ## Two orders -/

def claimOf (n vip : String) (e : Nat) : ClaimRecord := ⟨n, vip, e, []⟩

theorem offered_cons {c : ClaimRecord} : Offered (c :: l) n vip e ↔
      (n ≠ "" ∧ claimVipValid vip = true ∧ c.nodeId = n ∧ c.vip = vip ∧ c.vipEpoch = e) ∨ Offered l n vip e := by
  unfold Offered
  constructor
  · intro h
    obtain ⟨hn, hv, d, hd, h⟩ := h
    rcases List.mem_cons.mp hd with rfl | hd
    · exact .inl ⟨hn, hv, h⟩
    exact .inr ⟨hn, hv, d, hd, h⟩
  intro h
  rcases h with ⟨hn, hv, h⟩ | ⟨hn, hv, d, hd, h⟩
  · exact ⟨hn, hv, c, List.mem_cons_self, h⟩
  exact ⟨hn, hv, d, List.mem_cons_of_mem c hd, h⟩

theorem offered_perm {l' : List ClaimRecord} (h : l.Perm l') (n vip : String) (e : Nat) :
    Offered l n vip e ↔ Offered l' n vip e := by
  unfold Offered
  simp only [h.mem_iff]

theorem not_offered_nil : ¬ Offered [] n vip e := fun h => by
  obtain ⟨-, -, c, hc, -⟩ := h
  cases hc

def observer : Member := Member.new (Engine.new (.new 0) 0x0A0000C8 "o" 24 0) 4096 0

theorem observer_fresh : Fresh observer := ⟨rfl, rfl, rfl⟩

/-- Two nodes claim one address. -/
def contest : List ClaimRecord := [claimOf "a" "10.0.0.1" 1, claimOf "b" "10.0.0.1" 1]

theorem offered_contest : Offered contest n vip e ↔ (n = "a" ∨ n = "b") ∧ vip = "10.0.0.1" ∧ e = 1 := by
  have hv : claimVipValid "10.0.0.1" = true := by decide +kernel
  unfold contest
  rw [offered_cons, offered_cons, or_iff_left not_offered_nil]
  constructor
  · intro h
    rcases h with ⟨-, -, rfl, rfl, rfl⟩ | ⟨-, -, rfl, rfl, rfl⟩
    · exact ⟨.inl rfl, rfl, rfl⟩
    exact ⟨.inr rfl, rfl, rfl⟩
  intro h
  obtain ⟨rfl | rfl, rfl, rfl⟩ := h
  · exact .inl ⟨by decide, hv, rfl, rfl, rfl⟩
  exact .inr ⟨by decide, hv, rfl, rfl, rfl⟩

theorem contest_final : FinalClaim (Offered contest) "a" "10.0.0.1" 1 := by
  refine ⟨⟨offered_contest.mpr ⟨.inl rfl, rfl, rfl⟩, fun vip e h => ?_⟩, fun k e h => ?_⟩
  · exact (offered_contest.mp h).2.2.le
  rcases (offered_contest.mp h.1).1 with rfl | rfl
  · exact le_refl _
  decide

theorem contest_harmless : Harmless (Offered contest) := by
  intro n vip e h hnot
  obtain ⟨rfl | rfl, rfl, rfl⟩ := offered_contest.mp h
  · exact absurd contest_final hnot
  refine ⟨fun k e' hk => ?_, .inr ⟨"a", 1, contest_final, by decide⟩⟩
  exact le_trans (hk.2 "a" 1 contest_final.1) (by decide)

def received (l : List ClaimRecord) : List (Env × ClaimRecord) := l.map (quietEnv, ·)

theorem map_received : (received l).map (·.2) = l := by
  unfold received
  rw [List.map_map]
  exact List.map_id l

/-- The winner of the contest moves to another address. -/
def winnerMoves : List ClaimRecord :=
  [claimOf "a" "10.0.0.1" 1, claimOf "b" "10.0.0.1" 1, claimOf "a" "10.0.0.2" 2]

def winnerMovesFirst : List ClaimRecord :=
  [claimOf "a" "10.0.0.1" 1, claimOf "a" "10.0.0.2" 2, claimOf "b" "10.0.0.1" 1]

end Member

end ConnectUnit
