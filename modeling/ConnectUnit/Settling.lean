import Mathlib.Data.String.Basic
import ConnectUnit.ClaimsClear

/-!
# Settling contested addresses

Which claims `settle_duplicate_vips` removes, and what a member that does not
take part in the contest keeps of its claims and suppressions afterwards.
-/

namespace ConnectUnit

variable {vip n : String} {order : IterOrder} {pre : ClaimMap} {losers : List String} {now : Instant}

/-! ## The losers -/

theorem mem_drop_one_iff {α : Type} [LinearOrder α] {l : List α} (hs : l.Pairwise (· ≤ ·)) (hn : l.Nodup) {x : α} :
    x ∈ l.drop 1 ↔ x ∈ l ∧ ∃ y ∈ l, y < x := by
  cases l with
  | nil => simp
  | cons a l =>
    obtain ⟨ha, hl⟩ := List.nodup_cons.mp hn
    have hle := (List.pairwise_cons.mp hs).1
    constructor
    · intro hx
      have hx : x ∈ l := hx
      exact ⟨List.mem_cons_of_mem a hx, a, List.mem_cons_self, lt_of_le_of_ne (hle x hx) fun he => ha (he ▸ hx)⟩
    intro h
    obtain ⟨hx, y, hy, hyx⟩ := h
    rcases List.mem_cons.mp hx with rfl | hx
    · rcases List.mem_cons.mp hy with rfl | hy
      · exact absurd hyx (lt_irrefl y)
      · exact absurd hyx (not_lt.mpr (hle y hy))
    · exact hx

section
variable {map : ClaimMap}

theorem mem_claimants : n ∈ claimants map vip ↔ ∃ c, map.lookup n = some c ∧ c.vip = vip := by
  unfold claimants
  rw [List.mem_insertionSort, List.mem_map]
  constructor
  · intro h
    obtain ⟨e, he, rfl⟩ := h
    obtain ⟨hmem, hv⟩ := List.mem_filter.mp he
    exact ⟨e.2, (HashMap.lookup_eq_some_iff map).mpr hmem, of_decide_eq_true hv⟩
  intro h
  obtain ⟨c, hc, hv⟩ := h
  exact ⟨⟨n, c⟩, List.mem_filter.mpr ⟨(HashMap.lookup_eq_some_iff map).mp hc, decide_eq_true hv⟩, rfl⟩

theorem nodup_claimants : (claimants map vip).Nodup := by
  unfold claimants
  refine (List.perm_insertionSort _ _).nodup_iff.mpr ?_
  have hkeys : (map.entries.map (·.1)).Nodup := map.nodupKeys
  exact hkeys.sublist (List.filter_sublist.map _)

theorem mem_losers_iff : n ∈ (settleDuplicateVips map order).2 ↔
    ∃ c, map.lookup n = some c ∧ ∃ k d, map.lookup k = some d ∧ d.vip = c.vip ∧ k < n := by
  have hsorted : ∀ vip, (claimants map vip).Pairwise (· ≤ ·) := fun vip => List.pairwise_insertionSort _ _
  have hdrop : ∀ vip, n ∈ (claimants map vip).drop 1 ↔ n ∈ claimants map vip ∧ ∃ k ∈ claimants map vip, k < n :=
    fun vip => mem_drop_one_iff (hsorted vip) nodup_claimants
  unfold settleDuplicateVips
  dsimp only
  rw [List.mem_flatMap]
  constructor
  · intro h
    obtain ⟨vip, -, hn⟩ := h
    obtain ⟨hn, k, hk, hkn⟩ := (hdrop vip).mp hn
    obtain ⟨c, hc, rfl⟩ := mem_claimants.mp hn
    obtain ⟨d, hd, hv⟩ := mem_claimants.mp hk
    exact ⟨c, hc, k, d, hd, hv, hkn⟩
  intro h
  obtain ⟨c, hc, k, d, hd, hv, hkn⟩ := h
  refine ⟨c.vip, ?_, (hdrop c.vip).mpr ⟨mem_claimants.mpr ⟨c, hc, rfl⟩, k, mem_claimants.mpr ⟨d, hd, hv⟩, hkn⟩⟩
  rw [IterOrder.mem_arrange, List.mem_dedup]
  exact List.mem_map.mpr ⟨⟨n, c⟩, (HashMap.lookup_eq_some_iff map).mp hc, rfl⟩

theorem lookup_foldl_removeClaim (ns : List String) (n : String) :
    (ns.foldl removeClaim map).lookup n = if n ∈ ns then none else map.lookup n := by
  induction ns generalizing map with
  | nil => rfl
  | cons m ns ih =>
    rw [List.foldl_cons, ih]
    unfold removeClaim
    rw [HashMap.lookup_erase_eq]
    by_cases hm : n = m
    · simp [hm]
    simp [hm]

theorem lookup_settled {c : ClaimRecord} : (settleDuplicateVips map order).1.lookup n = some c ↔ map.lookup n = some c
    ∧ ∀ k d, map.lookup k = some d → d.vip = c.vip → n ≤ k := by
  have hlookup : (settleDuplicateVips map order).1.lookup n =
      if n ∈ (settleDuplicateVips map order).2 then none else map.lookup n := lookup_foldl_removeClaim _ n
  rw [hlookup]
  by_cases hn : n ∈ (settleDuplicateVips map order).2
  · rw [if_pos hn]
    obtain ⟨c', hc', k, d, hd, hv, hkn⟩ := mem_losers_iff.mp hn
    refine ⟨nofun, fun h => ?_⟩
    have he : c' = c := Option.some.inj (hc'.symm.trans h.1)
    exact absurd (h.2 k d hd (hv.trans (congrArg _ he))) (not_le.mpr hkn)
  rw [if_neg hn]
  refine ⟨fun h => ⟨h, fun k d hd hv => ?_⟩, And.left⟩
  exact not_lt.mp fun hkn => hn (mem_losers_iff.mpr ⟨c, h, k, d, hd, hv, hkn⟩)

end

/-! ## A member outside the contest -/

namespace Member

section
variable {P : Primitives} {env : Env} {q : String → String → Nat → Prop} {m : Member}

structure Dropped (pre : ClaimMap) (losers : List String) (m m' : Member) : Prop where
  tombs : m'.leaveTombs = m.leaveTombs
  claims : ∀ n, m'.claimMap.lookup n = m.claimMap.lookup n ∨ n ∈ losers ∧ m'.claimMap.lookup n = none
  suppress : ∀ n mark, m'.fightSuppress.lookup n = some mark → m.fightSuppress.lookup n = some mark ∨
    n ∈ losers ∧ ∃ c, pre.lookup n = some c ∧ mark.vip = c.vip ∧ mark.vipEpoch = c.vipEpoch

theorem Dropped.refl (pre : ClaimMap) (losers : List String) (m : Member) : Dropped pre losers m m :=
  ⟨rfl, fun _ => .inl rfl, fun _ _ h => .inl h⟩

theorem Dropped.trans {m m' m'' : Member} (h : Dropped pre losers m m')
    (h' : Dropped pre losers m' m'') : Dropped pre losers m m'' := by
  refine ⟨h'.tombs.trans h.tombs, fun n => ?_, fun n mark hm => ?_⟩
  · rcases h'.claims n with he | he
    · rw [he]
      exact h.claims n
    · exact .inr he
  rcases h'.suppress n mark hm with hm | hm
  · exact h.suppress n mark hm
  exact .inr hm

theorem lookup_installMark {marks : Marks} {k : String} {e ttl : Nat} {mark : Mark}
    (h : (installMark marks n vip e now ttl).lookup k = some mark) :
    marks.lookup k = some mark ∨ k = n ∧ mark.vip = vip ∧ mark.vipEpoch = e := by
  unfold installMark at h
  split at h
  · exact .inl h
  rw [HashMap.lookup_insert_eq] at h
  split at h
  · rename_i hk
    cases h
    exact .inr ⟨hk, rfl, rfl⟩
  · exact .inl h

theorem fightSuppressBlocks_eq_true_iff {suppress : Marks} {e : Nat} : fightSuppressBlocks suppress n vip e now = true
    ↔ ∃ s, suppress.lookup n = some s ∧ now < s.expiresAt ∧ s.vip = vip ∧ s.vipEpoch = e := by
  unfold fightSuppressBlocks
  rw [Option.any_eq_true]
  simp [Bool.and_eq_true, and_assoc]

theorem dropped_settleLoser {acc : Member × Bool} {loser : String} (hl : loser ≠ acc.1.core.myNodeId)
    (hm : loser ∈ losers) : Dropped pre losers acc.1 (settleLoser P pre env acc loser).1 := by
  unfold Member.settleLoser
  dsimp only
  rw [if_neg hl]
  split
  · rename_i c hc
    refine ⟨rfl, fun n => ?_, fun n mark hmark => ?_⟩
    · unfold removeClaim
      rw [HashMap.lookup_erase_eq]
      split
      · rename_i hn
        exact .inr ⟨hn ▸ hm, rfl⟩
      exact .inl rfl
    rcases lookup_installMark hmark with h | ⟨rfl, hv, he⟩
    · exact .inl h
    exact .inr ⟨hm, c, hc, hv, he⟩
  · exact Dropped.refl ..

variable (P env) in
theorem dropped_foldl (pre : ClaimMap) (ls : List String) (hsub : ∀ l ∈ ls, l ∈ losers) (acc : Member × Bool)
    (h : NoContest q acc.1) (hl : ∀ l ∈ ls, l ≠ acc.1.core.myNodeId) : Dropped pre losers acc.1
    (ls.foldl (settleLoser P pre env) acc).1 ∧ NoContest q (ls.foldl (settleLoser P pre env) acc).1 := by
  induction ls generalizing acc with
  | nil => exact ⟨Dropped.refl .., h⟩
  | cons l ls ih =>
    obtain ⟨hstep, hn⟩ := h.settleLoser P env pre (hl l List.mem_cons_self)
    obtain ⟨hd, hc⟩ := ih (fun k hk => hsub k (List.mem_cons_of_mem l hk)) _ hstep fun k hk => by
      rw [hn]
      exact hl k (List.mem_cons_of_mem l hk)
    exact ⟨(dropped_settleLoser (hl l List.mem_cons_self) (hsub l List.mem_cons_self)).trans hd, hc⟩

variable (P env) in
theorem NoContest.settle_spec (h : NoContest q m) :
    let m' := (m.applyClaimSettleAndLocalFight P env).1
    m'.leaveTombs = m.leaveTombs ∧
      (∀ n, m'.claimMap.lookup n = (settleDuplicateVips m.claimMap env.order).1.lookup n) ∧
      ∀ n mark, m'.fightSuppress.lookup n = some mark → m.fightSuppress.lookup n = some mark ∨
        n ∈ (settleDuplicateVips m.claimMap env.order).2 ∧
          ∃ c, m.claimMap.lookup n = some c ∧ mark.vip = c.vip ∧ mark.vipEpoch = c.vipEpoch := by
  have hl : ∀ l ∈ (settleDuplicateVips m.claimMap env.order).2, l ≠ m.core.myNodeId := by
    intro l hl
    obtain ⟨c, hc⟩ := mem_losers hl
    exact (h.away _ _ _ (h.claims l c hc)).1
  have h0 : NoContest q { m with claimMap := (settleDuplicateVips m.claimMap env.order).1 } :=
    ⟨h.away, h.claims.settle env.order⟩
  obtain ⟨hd, hc⟩ := dropped_foldl P env m.claimMap (settleDuplicateVips m.claimMap env.order).2 (fun _ hl => hl)
    ({ m with claimMap := (settleDuplicateVips m.claimMap env.order).1 }, false) h0 hl
  have hclaims : ∀ n, _ = (settleDuplicateVips m.claimMap env.order).1.lookup n := fun n => by
    rcases hd.claims n with he | ⟨hn, he⟩
    · exact he
    refine he.trans (Eq.symm ?_)
    exact (lookup_foldl_removeClaim _ n).trans (if_pos hn)
  unfold Member.applyClaimSettleAndLocalFight
  dsimp only
  rw [hc.fighters]
  split
  · exact ⟨hd.tombs, hclaims, hd.suppress⟩
  exact ⟨hd.tombs, hclaims, hd.suppress⟩

end

end Member

end ConnectUnit
