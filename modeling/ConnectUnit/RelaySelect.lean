import Mathlib.Data.Int.ConditionallyCompleteOrder
import Mathlib.Data.Prod.Lex
import Mathlib.Data.String.Basic
import ConnectUnit.Lib.Search
import ConnectUnit.RoutingSound

/-!
# The choice of a relay

The relay that a path set remembers is asked first, then the best route that can be used as one.
-/

namespace ConnectUnit

namespace RoutingTable

/-! ## The order of the candidates -/

def slowness : Option ℚ → WithTop ℚ
  | some rtt => (rtt : ℚ)
  | none => ⊤

theorem rttLt_iff : ∀ a b : Option ℚ, rttLt a b = true ↔ slowness a < slowness b
  | some _, some _ => decide_eq_true_iff.trans WithTop.coe_lt_coe.symm
  | some a, none => iff_of_true rfl (WithTop.coe_lt_top a)
  | none, _ => iff_of_false Bool.false_ne_true not_top_lt

theorem slowness_inj : ∀ a b : Option ℚ, slowness a = slowness b ↔ a = b
  | some _, some _ => WithTop.coe_inj.trans (Option.some.injEq _ _).to_iff.symm
  | some a, none => iff_of_false (WithTop.coe_ne_top (a := a)) nofun
  | none, some a => iff_of_false (WithTop.coe_ne_top (a := a)).symm nofun
  | none, none => iff_of_true rfl rfl

def HopCandidate.rank (c : HopCandidate) : Int ×ₗ (WithTop ℚ)ᵒᵈ ×ₗ Stringᵒᵈ :=
  toLex (c.quality, toLex (OrderDual.toDual (slowness c.rttSort), OrderDual.toDual c.vip))

theorem HopCandidate.replaces_iff {c best : HopCandidate} : c.replaces best = true ↔ best.rank < c.rank := by
  unfold HopCandidate.replaces HopCandidate.rank
  rw [Prod.Lex.toLex_lt_toLex, Prod.Lex.toLex_lt_toLex]
  simp only [Bool.or_eq_true, Bool.and_eq_true, decide_eq_true_eq, gt_iff_lt, OrderDual.toDual_lt_toDual,
    OrderDual.toDual_inj, rttLt_iff, slowness_inj]
  rw [eq_comm (a := c.quality), eq_comm (a := c.rttSort)]

/-! ## The candidates of a walk -/

section
variable (t : RoutingTable) (destVip myVip : String) (exclude : Option SocketAddr) (order : List String)

def hopCandidates : List HopCandidate :=
  order.filterMap fun vip => (t.table.lookup vip).bind fun entry =>
    if vip = myVip || some destVip = some vip || !t.hopUsable entry.endpoint (some destVip) myVip exclude then none
    else some (HopCandidate.of vip entry)

theorem mem_hopCandidates {c : HopCandidate} : c ∈ t.hopCandidates destVip myVip exclude order ↔ ∃ vip ∈ order, ∃
    entry, t.table.lookup vip = some entry ∧ vip ≠ myVip ∧ destVip ≠ vip ∧ t.hopUsable entry.endpoint (some destVip)
    myVip exclude = true ∧ HopCandidate.of vip entry = c := by
  unfold hopCandidates
  simp only [List.mem_filterMap, Option.bind_eq_some_iff, Option.ite_none_left_eq_some, Bool.or_eq_true,
    decide_eq_true_eq, Bool.not_eq_true', not_or, Bool.not_eq_false, Option.some.injEq, and_assoc, ne_eq]

theorem bestUsablePeerHop_eq : t.bestUsablePeerHop (some destVip) myVip exclude order =
    ((t.hopCandidates destVip myVip exclude order).argmax HopCandidate.rank).map (·.endpoint) := by
  unfold bestUsablePeerHop List.argmax
  dsimp only
  congr 2
  funext best c
  cases best with
  | none => rfl
  | some b => exact if_congr HopCandidate.replaces_iff rfl rfl

/-- The endpoint can relay to the destination: it is mapped to a route of its own that fails seldom and needs no relay
itself. -/
def Relays (ep : SocketAddr) : Prop :=
  exclude ≠ some ep ∧ t.lookup destVip ≠ some ep ∧ ∃ hopVip entry, t.epToVip.lookup ep = some hopVip ∧
    hopVip ≠ destVip ∧ hopVip ≠ myVip ∧ t.table.lookup hopVip = some entry ∧ entry.failStreak < 3 ∧
    entry.shouldRelay t.failover = false

theorem hopUsable_iff (ep : SocketAddr) :
    t.hopUsable ep (some destVip) myVip exclude = true ↔ t.Relays destVip myVip exclude ep := by
  have hdest : t.lookup destVip ≠ some ep ↔ (t.table.lookup destVip).any (·.endpoint = ep) = false := by
    unfold lookup
    cases t.table.lookup destVip <;> simp
  unfold hopUsable Relays
  rw [hdest]
  cases hep : t.epToVip.lookup ep with
  | none => simp
  | some hopVip =>
    cases hentry : t.table.lookup hopVip with
    | none => simp [hentry]
    | some entry =>
      simp only [Bool.if_false_left, Bool.and_eq_true, Bool.not_eq_true', decide_eq_false_iff_not, Option.any_some,
        Option.some.injEq, hentry, ge_iff_le, not_le, ne_eq, Bool.not_eq_true, Bool.or_eq_false_iff]
      constructor
      · rintro ⟨hex, hme, ⟨hvip, hany⟩, hstreak, hrelay⟩
        exact ⟨hex, hany, hopVip, entry, rfl, hvip, hme, hentry, hstreak, hrelay⟩
      rintro ⟨hex, hany, _, entry', rfl, hvip, hme, hentry', hstreak, hrelay⟩
      cases hentry.symm.trans hentry'
      exact ⟨hex, hme, ⟨hvip, hany⟩, hstreak, hrelay⟩

end

section
variable {t : RoutingTable} {destVip myVip : String} {exclude : Option SocketAddr} {order : List String}

theorem Relays.route (h : Indexed t) {ep : SocketAddr} (hep : t.Relays destVip myVip exclude ep) :
    ∃ vip, vip ≠ destVip ∧ vip ≠ myVip ∧ t.lookup vip = some ep := by
  obtain ⟨_, _, hopVip, _, hmapped, hdest, hme, _⟩ := hep
  exact ⟨hopVip, hdest, hme, h.ep hmapped⟩

theorem bestUsablePeerHop_relays {ep : SocketAddr}
    (hbest : t.bestUsablePeerHop (some destVip) myVip exclude order = some ep) :
    t.Relays destVip myVip exclude ep := by
  rw [bestUsablePeerHop_eq] at hbest
  obtain ⟨c, hc, rfl⟩ := Option.map_eq_some_iff.mp hbest
  obtain ⟨vip, _, entry, _, _, _, husable, rfl⟩ := (mem_hopCandidates ..).mp (List.argmax_mem hc)
  exact (hopUsable_iff ..).mp husable

theorem bestUsablePeerHop_eq_none (horder : order.Perm t.table.keys) : t.bestUsablePeerHop (some destVip) myVip
    exclude order = none ↔ ∀ vip ep, vip ≠ destVip → vip ≠ myVip → t.lookup vip = some ep → ¬ t.Relays destVip myVip
    exclude ep := by
  rw [bestUsablePeerHop_eq, Option.map_eq_none_iff, List.argmax_eq_none, List.eq_nil_iff_forall_not_mem]
  constructor
  · intro hnone vip ep hdest hme hep hrelays
    obtain ⟨entry, hentry, rfl⟩ := Option.map_eq_some_iff.mp hep
    have hvip : vip ∈ order := horder.mem_iff.mpr (AList.lookup_isSome.mp (hentry ▸ rfl))
    exact hnone _ ((mem_hopCandidates ..).mpr
      ⟨vip, hvip, entry, hentry, hme, hdest.symm, (hopUsable_iff ..).mpr hrelays, rfl⟩)
  intro hnone c hc
  obtain ⟨vip, _, entry, hentry, hme, hdest, husable, _⟩ := (mem_hopCandidates ..).mp hc
  exact hnone vip entry.endpoint hdest.symm hme (by rw [lookup, hentry]; rfl) ((hopUsable_iff ..).mp husable)

theorem rank_injective : ∀ a ∈ t.hopCandidates destVip myVip exclude order,
    ∀ b ∈ t.hopCandidates destVip myVip exclude order, a.rank = b.rank → a = b := by
  intro a ha b hb hrank
  obtain ⟨vip, _, entry, hentry, _, _, _, rfl⟩ := (mem_hopCandidates ..).mp ha
  obtain ⟨vip', _, entry', hentry', _, _, _, rfl⟩ := (mem_hopCandidates ..).mp hb
  have hvip : vip = vip' := by
    have hlast := (Prod.ext_iff.mp (toLex_inj.mp (Prod.ext_iff.mp (toLex_inj.mp hrank)).2)).2
    exact OrderDual.toDual_inj.mp hlast
  subst hvip
  cases hentry.symm.trans hentry'
  rfl

theorem selectRelayEndpoint_perm {order' : List String} (hp : order.Perm order') :
    t.selectRelayEndpoint destVip myVip exclude order = t.selectRelayEndpoint destVip myVip exclude order' := by
  have hbest : t.bestUsablePeerHop (some destVip) myVip exclude order =
      t.bestUsablePeerHop (some destVip) myVip exclude order' := by
    rw [bestUsablePeerHop_eq, bestUsablePeerHop_eq]
    exact congrArg _ (Search.argmax_eq_of_perm (hp.filterMap _) rank_injective)
  unfold selectRelayEndpoint
  rw [hbest]

/-- The choice is an endpoint that can relay, there is none only if no other route has one, and every walk through the
table makes the same choice. -/
theorem relay_selection (h : Indexed t) (horder : order.Perm t.table.keys) :
    (∀ ep, t.selectRelayEndpoint destVip myVip exclude order = .hop ep →
      (∃ vip, t.lookup vip = some ep) ∧ t.Relays destVip myVip exclude ep) ∧
    (t.selectRelayEndpoint destVip myVip exclude order = .none ↔
      ∀ vip ep, vip ≠ destVip → vip ≠ myVip → t.lookup vip = some ep → ¬ t.Relays destVip myVip exclude ep) ∧
    ∀ order' : List String, order'.Perm t.table.keys →
      t.selectRelayEndpoint destVip myVip exclude order' = t.selectRelayEndpoint destVip myVip exclude order := by
  have hroute {ep : SocketAddr} (hep : t.Relays destVip myVip exclude ep) :
      (∃ vip, t.lookup vip = some ep) ∧ t.Relays destVip myVip exclude ep :=
    ⟨(Relays.route h hep).imp fun _ hvip => hvip.2.2, hep⟩
  refine ⟨?_, ?_, fun order' horder' => selectRelayEndpoint_perm (horder'.trans horder.symm)⟩
  · intro ep hselect
    unfold selectRelayEndpoint at hselect
    split at hselect
    · rename_i sticky hsticky
      cases hselect
      exact hroute ((hopUsable_iff ..).mp (Option.filter_eq_some_iff.mp hsticky).2)
    split at hselect
    · rename_i best hbest
      cases hselect
      exact hroute (bestUsablePeerHop_relays hbest)
    · cases hselect
  rw [← bestUsablePeerHop_eq_none horder]
  unfold selectRelayEndpoint
  split
  · -- the remembered relay has a route of its own, so the walk finds one too
    rename_i sticky hsticky
    obtain ⟨vip, hdest, hme, hvip⟩ := Relays.route h ((hopUsable_iff ..).mp (Option.filter_eq_some_iff.mp hsticky).2)
    refine iff_of_false nofun fun hnone => ?_
    exact (bestUsablePeerHop_eq_none horder).mp hnone vip sticky hdest hme hvip
      ((hopUsable_iff ..).mp (Option.filter_eq_some_iff.mp hsticky).2)
  split
  · rename_i best hbest
    exact iff_of_false nofun (by rw [hbest]; exact nofun)
  rename_i hbest
  exact iff_of_true rfl hbest

end

/-- Two peers that could relay to a third. -/
def threePeers : RoutingTable := Machine.run step (new 0)
  [(0, .update "10.0.0.2" (.v4 2 7777) none), (0, .update "10.0.0.3" (.v4 3 7777) none),
    (0, .update "10.0.0.4" (.v4 4 7777) none)]

theorem threePeers_relayed :
    threePeers.selectRelayEndpoint "10.0.0.4" "10.0.0.1" none threePeers.table.keys = .hop (.v4 2 7777) ∧
      threePeers.Relays "10.0.0.4" "10.0.0.1" none (.v4 2 7777) ∧
      threePeers.selectRelayEndpoint "10.0.0.4" "10.0.0.1" none threePeers.table.keys.reverse =
        .hop (.v4 2 7777) := by
  have hselect : threePeers.selectRelayEndpoint "10.0.0.4" "10.0.0.1" none threePeers.table.keys =
      .hop (.v4 2 7777) := by decide +kernel
  have hindexed : Indexed threePeers := Machine.run_invariant indexed_new (fun _ op h => h.apply)
  refine ⟨hselect, ((relay_selection hindexed (.refl _)).1 _ hselect).2, ?_⟩
  exact ((relay_selection hindexed (.refl _)).2.2 _ (List.reverse_perm _)).trans hselect

end RoutingTable

end ConnectUnit
