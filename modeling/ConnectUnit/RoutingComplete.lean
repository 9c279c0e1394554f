import ConnectUnit.RoutingSound
import ConnectUnit.Lib.Cover

/-!
# Completeness of the endpoint and node indexes

Several routes may share an endpoint or a node id.
-/

open Machine (Each stateAt)

namespace ConnectUnit

variable {t : RoutingTable} {vip prev n : String} {ep : SocketAddr} {nodeId : Option String}
variable {now : Instant}

namespace RoutingTable

open Cover

/-! ## What an update does -/

/-- The endpoint is held by another virtual IP whose node id the update contradicts. -/
def Rejects (t : RoutingTable) (vip : String) (ep : SocketAddr) (nodeId : Option String) : Prop :=
  ∃ prev r, t.epToVip.lookup ep = some prev ∧ prev ≠ vip ∧ t.table.lookup prev = some r ∧ r.nodeId ≠ "" ∧
    (nodeId.getD "" ≠ "" ∧ nodeId.getD "" ≠ r.nodeId ∨
      nodeId.getD "" = "" ∧ r.state ≠ .stale ∧ r.state ≠ .degraded)

theorem aliasDecision_cases {prevVip prevNode incomingNode : String} {prevState : RouteState} :
    (aliasDecision prevVip prevNode incomingNode prevState = .reject ∧ prevNode ≠ "" ∧
      (incomingNode ≠ "" ∧ incomingNode ≠ prevNode ∨
        incomingNode = "" ∧ prevState ≠ .stale ∧ prevState ≠ .degraded)) ∨
    (aliasDecision prevVip prevNode incomingNode prevState = .removePrev prevVip ∧ incomingNode ≠ "" ∧
      (prevNode = "" ∨ prevNode = incomingNode)) ∨
    (aliasDecision prevVip prevNode incomingNode prevState = .dropEp ∧ incomingNode = "" ∧
      (prevNode = "" ∨ prevState = .stale ∨ prevState = .degraded)) := by
  unfold aliasDecision
  by_cases hi : incomingNode = ""
  · by_cases hp : prevNode = ""
    · exact .inr (.inr (by simp [hi, hp]))
    · by_cases hs : prevState = .stale ∨ prevState = .degraded
      · refine .inr (.inr ⟨?_, hi, .inr hs⟩)
        rcases hs with hs | hs <;> simp [hi, hp, hs]
      · rw [not_or] at hs
        exact .inl (by simp [hi, hp, hs])
  by_cases hp : prevNode = ""
  · exact .inr (.inl (by simp [hi, hp]))
  by_cases he : prevNode = incomingNode
  · exact .inr (.inl (by simp [hi, he]))
  exact .inl (by simp [hi, hp, he, Ne.symm he])

theorem rejects_iff_of_held (hep : t.epToVip.lookup ep = some prev) (hv : prev ≠ vip) :
    t.Rejects vip ep nodeId ↔ ((t.table.lookup prev).map (·.nodeId)).getD "" ≠ "" ∧
      (nodeId.getD "" ≠ "" ∧ nodeId.getD "" ≠ ((t.table.lookup prev).map (·.nodeId)).getD "" ∨
        nodeId.getD "" = "" ∧ ((t.table.lookup prev).map (·.state)).getD .candidate ≠ .stale ∧
          ((t.table.lookup prev).map (·.state)).getD .candidate ≠ .degraded) := by
  constructor
  · intro h
    obtain ⟨prev', r, hep', _, hl, hn, hr⟩ := h
    cases hep.symm.trans hep'
    rw [hl]
    exact ⟨hn, hr⟩
  intro h
  obtain ⟨hn, hr⟩ := h
  cases hl : t.table.lookup prev with
  | none => simp [hl] at hn
  | some r =>
    rw [hl] at hn hr
    exact ⟨prev, r, hep, hv, hl, hn, hr⟩

theorem aliasOf_cases (t : RoutingTable) (vip : String) (ep : SocketAddr) (nodeId : Option String) :
    (t.aliasOf vip ep nodeId = .reject ∧ t.Rejects vip ep nodeId) ∨
    ¬ t.Rejects vip ep nodeId ∧ (t.aliasOf vip ep nodeId = .none ∨ t.aliasOf vip ep nodeId = .dropEp ∨
      ∃ prev n, t.aliasOf vip ep nodeId = .removePrev prev ∧ t.epToVip.lookup ep = some prev ∧ prev ≠ vip ∧
        nodeId = some n ∧ n ≠ "" ∧ ((t.nodeOf prev).getD "" = "" ∨ (t.nodeOf prev).getD "" = n)) := by
  unfold aliasOf nodeOf
  cases hep : t.epToVip.lookup ep with
  | none => exact .inr ⟨by simp [Rejects, hep], .inl rfl⟩
  | some prev =>
    by_cases hv : prev = vip
    · exact .inr ⟨by simp [Rejects, hep, hv], .inl (by simp [hv])⟩
    dsimp only
    rw [if_neg hv, rejects_iff_of_held hep hv]
    rcases aliasDecision_cases with ⟨hd, hr⟩ | ⟨hd, hi, hp⟩ | ⟨hd, hi, hp⟩
    · exact .inl ⟨hd, hr⟩
    · refine .inr ⟨?_, .inr (.inr ⟨prev, nodeId.getD "", hd, rfl, hv, ?_, hi, hp⟩)⟩
      · intro hr
        rcases hp with hp | hp
        · exact hr.1 hp
        rcases hr.2 with ⟨_, hne⟩ | ⟨hi', _⟩
        · exact hne hp.symm
        exact hi hi'
      · cases nodeId with
        | none => exact absurd rfl hi
        | some n => rfl
    refine .inr ⟨?_, .inr (.inl hd)⟩
    intro hr
    rcases hr.2 with ⟨hi', _⟩ | ⟨_, hs, hs'⟩
    · exact hi' hi
    rcases hp with hp | hp | hp
    · exact hr.1 hp
    · exact hs hp
    exact hs' hp

@[simp] theorem pruneIfDue_table : (t.pruneIfDue now).table = t.table := by
  unfold pruneIfDue pruneTombstones; split <;> rfl

@[simp] theorem pruneIfDue_ep (t : RoutingTable) (now : Instant) : (t.pruneIfDue now).epToVip = t.epToVip := by
  unfold pruneIfDue pruneTombstones; split <;> rfl

@[simp] theorem pruneIfDue_node : (t.pruneIfDue now).nodeToVip = t.nodeToVip := by
  unfold pruneIfDue pruneTombstones; split <;> rfl

@[simp] theorem pruneIfDue_lookup (t : RoutingTable) (v : String) : (t.pruneIfDue now).lookup v = t.lookup v := by
  unfold lookup; rw [pruneIfDue_table]

@[simp] theorem pruneIfDue_nodeOf (t : RoutingTable) (v : String) : (t.pruneIfDue now).nodeOf v = t.nodeOf v := by
  unfold nodeOf; rw [pruneIfDue_table]

@[simp] theorem pruneIfDue_aliasOf : (t.pruneIfDue now).aliasOf vip ep nodeId = t.aliasOf vip ep nodeId := by
  unfold aliasOf; rw [pruneIfDue_table, pruneIfDue_ep]

/-! ## The routes and indexes after an accepted update -/

section
variable {t : RoutingTable} {vip : String} {ep : SocketAddr} {nodeId : Option String}

theorem update_of_rejects (h : t.Rejects vip ep nodeId) : t.update vip ep nodeId now = t.pruneIfDue now := by
  rcases t.aliasOf_cases vip ep nodeId with ⟨ha, _⟩ | ⟨hn, _⟩
  · simp [update, ha]
  exact absurd h hn

structure RoomFor (t t' : RoutingTable) (vip : String) (ep : SocketAddr) (nodeId : Option String) : Prop where
  self : t'.lookup vip = t.lookup vip
  selfNode : t'.nodeOf vip = t.nodeOf vip
  lookup : ∀ v e, e ≠ ep → (t'.lookup v = some e ↔ t.lookup v = some e)
  nodeOf : ∀ v n, n ≠ "" → n ≠ t.placedNode vip nodeId → (t'.nodeOf v = some n ↔ t.nodeOf v = some n)
  ep : ∀ e, e ≠ ep → t'.epToVip.lookup e = t.epToVip.lookup e
  node : ∀ n, n ≠ "" → n ≠ t.placedNode vip nodeId → t'.nodeToVip.lookup n = t.nodeToVip.lookup n

theorem RoomFor.prune (t : RoutingTable) (vip : String) (ep : SocketAddr) (nodeId : Option String) (now : Instant) :
    RoomFor t (t.pruneIfDue now) vip ep nodeId := by
  constructor <;> simp

theorem RoomFor.remove (hi : Indexed t) (hep : t.epToVip.lookup ep = some prev) (hv : prev ≠ vip)
    (hp : (t.nodeOf prev).getD "" = "" ∨ (t.nodeOf prev).getD "" = n) (now : Instant) :
    RoomFor t (t.remove prev now) vip ep (some n) where
  self := remove_lookup t hv.symm
  selfNode := remove_nodeOf t hv.symm
  lookup v e he := by
    by_cases h : v = prev
    · subst h
      unfold RoutingTable.lookup
      rw [remove_table, if_pos rfl]
      refine iff_of_false (by simp) fun hc => he ?_
      exact Option.some.inj (hc.symm.trans (hi.ep hep))
    · rw [remove_lookup t h]
  nodeOf v m hm hmn := by
    by_cases h : v = prev
    · subst h
      refine iff_of_false ?_ fun hc => ?_
      · unfold RoutingTable.nodeOf
        rw [remove_table, if_pos rfl]; simp
      rw [hc] at hp
      exact hp.elim hm hmn
    · rw [remove_nodeOf t h]
  ep e he := by
    rw [remove_ep, hi.ep hep, if_neg]
    exact fun hc => he (Option.some.inj hc.1).symm
  node m hm hmn := by
    rw [remove_node, if_neg]
    intro h
    obtain ⟨_, hc⟩ := h
    rw [hc] at hp
    exact hp.elim hm hmn

theorem RoomFor.trans {t' t'' : RoutingTable} (h : RoomFor t t' vip ep nodeId) (h' : RoomFor t' t'' vip ep nodeId) :
    RoomFor t t'' vip ep nodeId := by
  have hp : t'.placedNode vip nodeId = t.placedNode vip nodeId := by unfold placedNode; rw [h.selfNode]
  have hnodeOf := h'.nodeOf
  have hnode := h'.node
  rw [hp] at hnodeOf hnode
  exact ⟨h'.self.trans h.self, h'.selfNode.trans h.selfNode, fun v e he => (h'.lookup v e he).trans (h.lookup v e he),
    fun v n hn hm => (hnodeOf v n hn hm).trans (h.nodeOf v n hn hm), fun e he => (h'.ep e he).trans (h.ep e he),
    fun n hn hm => (hnode n hn hm).trans (h.node n hn hm)⟩

theorem RoomFor.dropEp (t : RoutingTable) (vip : String) (ep : SocketAddr) (nodeId : Option String) :
    RoomFor t { t with epToVip := t.epToVip.erase ep } vip ep nodeId where
  self := rfl
  selfNode := rfl
  lookup _ _ _ := Iff.rfl
  nodeOf _ _ _ _ := Iff.rfl
  ep e he := by rw [HashMap.lookup_erase_eq, if_neg he]
  node _ _ _ := rfl

theorem update_eq_place (hi : Indexed t) (h : ¬ t.Rejects vip ep nodeId) (now : Instant) :
    ∃ t', RoomFor t t' vip ep nodeId ∧ t.update vip ep nodeId now = t'.place vip ep nodeId now := by
  have hprune := RoomFor.prune t vip ep nodeId now
  rcases t.aliasOf_cases vip ep nodeId with ⟨_, hr⟩ | ⟨_, ha | ha | ⟨prev, n, ha, hep, hv, rfl, hne, hp⟩⟩
  · exact absurd hr h
  · exact ⟨_, hprune, by simp [update, ha]⟩
  · exact ⟨_, hprune.trans (.dropEp _ vip ep nodeId), by simp [update, ha]⟩
  · refine ⟨_, hprune.trans (.remove (hi.pruneIfDue now) (n := n) ?_ hv ?_ now), by simp [update, ha]⟩
    · rw [pruneIfDue_ep]; exact hep
    · rw [pruneIfDue_nodeOf]; exact hp

end

/-! ## Runs of updates and removals -/

inductive Change where
  | update (vip : String) (ep : SocketAddr) (nodeId : Option String)
  | remove (vip : String)

def Change.op : Change → Op
  | .update vip ep nodeId => .update vip ep nodeId
  | .remove vip => .remove vip

def changeStep (t : RoutingTable) (c : Instant × Change) : RoutingTable × List Empty := t.step (c.1, c.2.op)

theorem indexed_changes (start : Instant) (cs : List (Instant × Change)) (i : Nat) :
    Indexed (stateAt changeStep (new start) cs i) :=
  Machine.invariant_all indexed_new (fun _ _ h => h.apply) i

/-! ## Endpoints -/

def EndpointsIndexed (t : RoutingTable) : Prop := ∀ v r, t.table.lookup v = some r → r.endpoint ∈ t.epToVip

theorem endpointsIndexed_iff : t.EndpointsIndexed ↔ Covers (· ∈ t.epToVip) t.lookup := by
  constructor
  · intro h v e hv
    obtain ⟨r, hr, rfl⟩ := Option.map_eq_some_iff.mp hv
    exact h v r hr
  intro h v r hr
  exact h v r.endpoint (by unfold lookup; rw [hr]; rfl)

def SoleAt (t : RoutingTable) (vip : String) (e : SocketAddr) : Prop := ∀ v, v ≠ vip → t.lookup v ≠ some e

/-- The call takes no endpoint out of the index that another route still has. -/
def KeepsEndpoints (t : RoutingTable) (c : Instant × Change) : Prop :=
  match c.2 with
  | .update vip ep nodeId =>
    t.Rejects vip ep nodeId ∨ ∀ e, t.lookup vip = some e → ep = e ∨ t.SoleAt vip e
  | .remove vip => ∀ e, t.lookup vip = some e → t.epToVip.lookup e ≠ some vip ∨ t.SoleAt vip e

theorem update_endpoints_iff (hi : Indexed t) (hc : t.EndpointsIndexed) :
    (t.update vip ep nodeId now).EndpointsIndexed ↔ KeepsEndpoints t (now, .update vip ep nodeId) := by
  by_cases hr : t.Rejects vip ep nodeId
  · refine iff_of_true (fun v r hv => ?_) (.inl hr)
    rw [update_of_rejects hr, pruneIfDue_table] at hv
    rw [update_of_rejects hr, pruneIfDue_ep]
    exact hc v r hv
  obtain ⟨t', room, hu⟩ := update_eq_place hi hr now
  rw [endpointsIndexed_iff] at hc ⊢
  have hself : (t.update vip ep nodeId now).lookup vip = some ep := by rw [hu, place_lookup_self]
  have hother : ∀ v e, v ≠ vip → some ep ≠ some e →
      ((t.update vip ep nodeId now).lookup v = some e ↔ t.lookup v = some e) := by
    intro v e hv he
    rw [hu, place_lookup _ _ _ _ _ hv]
    exact room.lookup v e fun h => he (congrArg some h.symm)
  have hidx : ∀ e, e ∈ (t.update vip ep nodeId now).epToVip ↔
      some ep = some e ∨ e ∈ t.epToVip ∧ ¬ (t.lookup vip = some e ∧ True) := by
    intro e
    rw [hu, ← AList.lookup_isSome, ← AList.lookup_isSome, place_ep, room.self]
    by_cases he : e = ep
    · simp [he]
    rw [if_neg he, room.ep e he]
    by_cases hl : t.lookup vip = some e <;> simp [hl, Ne.symm he]
  rw [covers_iff hc hself hother hidx]
  simp only [KeepsEndpoints, SoleAt, hr, false_or, not_true_eq_false, Option.some.injEq]

theorem remove_endpoints_iff (hc : t.EndpointsIndexed) :
    (t.remove vip now).EndpointsIndexed ↔ KeepsEndpoints t (now, .remove vip) := by
  rw [endpointsIndexed_iff] at hc ⊢
  have hself : (t.remove vip now).lookup vip = none := by unfold lookup; rw [remove_table, if_pos rfl]; rfl
  have hother : ∀ v e, v ≠ vip → none ≠ some e → ((t.remove vip now).lookup v = some e ↔ t.lookup v = some e) := by
    intro v e hv _
    rw [remove_lookup t hv]
  have hidx : ∀ e, e ∈ (t.remove vip now).epToVip ↔
      none = some e ∨ e ∈ t.epToVip ∧ ¬ (t.lookup vip = some e ∧ t.epToVip.lookup e = some vip) := by
    intro e
    rw [← AList.lookup_isSome, ← AList.lookup_isSome, remove_ep]
    split
    · rename_i h; simp [h]
    rename_i h; simp [h]
  rw [covers_iff hc hself hother hidx]
  simp only [KeepsEndpoints, SoleAt, reduceCtorEq, false_or, ne_eq]

/-- Along a run of updates and removals every route's endpoint stays indexed exactly if no call
drops an endpoint that another route still has. -/
theorem run_endpoints_indexed_iff (start : Instant) (cs : List (Instant × Change)) :
    (∀ i, (stateAt changeStep (new start) cs i).EndpointsIndexed) ↔ Each changeStep (new start) cs
    KeepsEndpoints := by
  refine Machine.always_iff_each (fun v r h => by cases h) (indexed_changes start cs) ?_
  intro t ev hi hc
  obtain ⟨now, c⟩ := ev
  cases c with
  | update vip ep nodeId => exact update_endpoints_iff hi hc
  | remove vip => exact remove_endpoints_iff hc

/-- Two routes at one endpoint, then the second moves away: the first is no longer indexed. -/
theorem shared_endpoint_unindexed : ¬ EndpointsIndexed (stateAt changeStep (new 0)
      [(1, .update "10.1.0.1" (.v4 0x0A000001 1) none), (2, .update "10.1.0.2" (.v4 0x0A000001 1) none),
        (3, .update "10.1.0.2" (.v4 0x0A000001 2) none)] 3) := by
  rw [endpointsIndexed_iff]
  intro h
  have hidx := h "10.1.0.1" (.v4 0x0A000001 1) (by decide)
  exact absurd hidx (by decide)

/-! ## Nodes -/

/-- Every node id that a route carries is indexed, and its lookup finds a route that carries it. -/
def NodesIndexed (t : RoutingTable) : Prop :=
  ∀ v r, t.table.lookup v = some r → r.nodeId ≠ "" → r.nodeId ∈ t.nodeToVip ∧
    ∃ v' r', t.table.lookup v' = some r' ∧ r'.nodeId = r.nodeId ∧ t.lookupEpByNode r.nodeId = some r'.endpoint

def carried (t : RoutingTable) (v : String) : Option String := (t.nodeOf v).filter (· ≠ "")

theorem carried_eq_some (t : RoutingTable) (v n : String) : t.carried v = some n ↔ t.nodeOf v = some n ∧ n ≠ "" := by
  unfold carried
  rw [Option.filter_eq_some_iff]; simp

theorem nodesIndexed_iff (hi : Indexed t) : t.NodesIndexed ↔ Covers (· ∈ t.nodeToVip) t.carried := by
  constructor
  · intro h v n hv
    obtain ⟨hn, hne⟩ := (t.carried_eq_some v n).mp hv
    obtain ⟨r, hr, rfl⟩ := Option.map_eq_some_iff.mp hn
    exact (h v r hr hne).1
  intro h v r hr hne
  have hmem : r.nodeId ∈ t.nodeToVip := h v r.nodeId ((t.carried_eq_some _ _).mpr ⟨by simp [nodeOf, hr], hne⟩)
  obtain ⟨v', hv'⟩ := (HashMap.mem_iff_lookup _).mp hmem
  obtain ⟨r', hr', hn'⟩ := Option.map_eq_some_iff.mp (hi.node hv')
  refine ⟨hmem, v', r', hr', hn', ?_⟩
  unfold lookupEpByNode lookup
  rw [hv', Option.bind_some, hr']; rfl

def SoleCarrier (t : RoutingTable) (vip : String) (n : String) : Prop := ∀ v, v ≠ vip → t.nodeOf v ≠ some n

/-- The call takes no node id out of the index that another route still carries. -/
def KeepsNodes (t : RoutingTable) (c : Instant × Change) : Prop :=
  match c.2 with
  | .update vip ep nodeId =>
    t.Rejects vip ep nodeId ∨
      ∀ n, t.nodeOf vip = some n → n ≠ "" → nodeId.getD n = n ∨ t.SoleCarrier vip n
  | .remove vip => ∀ n, t.nodeOf vip = some n → n ≠ "" → t.SoleCarrier vip n

theorem soleCarrier_iff (hn : n ≠ "") : t.SoleCarrier vip n ↔ ∀ v, v ≠ vip → t.carried v ≠ some n := by
  simp only [SoleCarrier, ne_eq, carried_eq_some, hn, not_false_eq_true, and_true]

theorem empty_not_mem_nodeToVip (hi : Indexed t) : "" ∉ t.nodeToVip := by
  intro h
  obtain ⟨v, hv⟩ := (HashMap.mem_iff_lookup _).mp h
  exact hi.nodeNonempty hv rfl

def placedCarried (t : RoutingTable) (vip : String) (nodeId : Option String) : Option String :=
  (some (t.placedNode vip nodeId)).filter (· ≠ "")

theorem placedCarried_eq_some (t : RoutingTable) :
    t.placedCarried vip nodeId = some n ↔ n = t.placedNode vip nodeId ∧ n ≠ "" := by
  unfold placedCarried
  rw [Option.filter_eq_some_iff, Option.some.injEq, eq_comm]; simp

theorem mem_node_of_update (hi : Indexed t) (hr : ¬ t.Rejects vip ep nodeId) (n : String) : n ∈
    (t.update vip ep nodeId now).nodeToVip ↔ t.placedCarried vip nodeId = some n ∨ n ∈ t.nodeToVip ∧ ¬ t.carried vip =
    some n := by
  by_cases hn : n = ""
  · subst hn
    refine iff_of_false (empty_not_mem_nodeToVip (hi.update vip ep nodeId now)) ?_
    rw [placedCarried_eq_some]
    intro h
    rcases h with h | h
    · exact h.2 rfl
    exact empty_not_mem_nodeToVip hi h.1
  obtain ⟨t', room, hu⟩ := update_eq_place hi hr now
  have hplaced : t'.placedNode vip nodeId = t.placedNode vip nodeId := by unfold placedNode; rw [room.selfNode]
  rw [placedCarried_eq_some, carried_eq_some, hu, ← AList.lookup_isSome, ← AList.lookup_isSome, place_node,
    hplaced, room.selfNode]
  by_cases hp : n = t.placedNode vip nodeId
  · rw [if_pos ⟨hn, hp⟩]; exact iff_of_true rfl (.inl ⟨hp, hn⟩)
  rw [if_neg (fun h => hp h.2), room.node n hn hp]
  by_cases ho : t.nodeOf vip = some n <;> simp [ho, hn, hp]

theorem update_nodes_iff (hi : Indexed t) (hc : t.NodesIndexed) :
    (t.update vip ep nodeId now).NodesIndexed ↔ KeepsNodes t (now, .update vip ep nodeId) := by
  rw [nodesIndexed_iff (hi.update vip ep nodeId now)]
  rw [nodesIndexed_iff hi] at hc
  by_cases hr : t.Rejects vip ep nodeId
  · refine iff_of_true (fun v n hv => ?_) (.inl hr)
    rw [update_of_rejects hr, carried_eq_some, pruneIfDue_nodeOf, ← carried_eq_some] at hv
    rw [update_of_rejects hr, pruneIfDue_node]
    exact hc v n hv
  obtain ⟨t', room, hu⟩ := update_eq_place hi hr now
  have hself : (t.update vip ep nodeId now).carried vip = t.placedCarried vip nodeId := by
    unfold carried placedCarried placedNode
    rw [hu, place_nodeOf_self, placedNode, room.selfNode]
  have hother : ∀ v n, v ≠ vip → t.placedCarried vip nodeId ≠ some n →
      ((t.update vip ep nodeId now).carried v = some n ↔ t.carried v = some n) := by
    intro v n hv hn
    rw [carried_eq_some, carried_eq_some, hu, place_nodeOf _ _ _ _ _ hv]
    exact and_congr_left fun hne =>
      room.nodeOf v n hne fun he => hn ((t.placedCarried_eq_some).mpr ⟨he, hne⟩)
  have hidx : ∀ n, n ∈ (t.update vip ep nodeId now).nodeToVip ↔
      t.placedCarried vip nodeId = some n ∨ n ∈ t.nodeToVip ∧ ¬ (t.carried vip = some n ∧ True) := by
    simpa using mem_node_of_update hi hr
  rw [covers_iff hc hself hother hidx]
  simp only [KeepsNodes, hr, false_or, not_true_eq_false, carried_eq_some t vip, and_imp]
  refine forall_congr' fun n => forall_congr' fun hn => forall_congr' fun hne => ?_
  rw [placedCarried_eq_some, soleCarrier_iff hne, placedNode, hn]
  simp [hne, eq_comm]

theorem remove_nodes_iff (hi : Indexed t) (hc : t.NodesIndexed) :
    (t.remove vip now).NodesIndexed ↔ KeepsNodes t (now, .remove vip) := by
  rw [nodesIndexed_iff (hi.remove vip now)]
  rw [nodesIndexed_iff hi] at hc
  have hself : (t.remove vip now).carried vip = none := by
    unfold carried nodeOf; rw [remove_table, if_pos rfl]; rfl
  have hother : ∀ v n, v ≠ vip → none ≠ some n → ((t.remove vip now).carried v = some n ↔ t.carried v = some n) := by
    intro v n hv _
    rw [carried_eq_some, carried_eq_some, remove_nodeOf t hv]
  have hidx : ∀ n, n ∈ (t.remove vip now).nodeToVip ↔
      none = some n ∨ n ∈ t.nodeToVip ∧ ¬ (t.carried vip = some n ∧ True) := by
    intro n
    rw [← AList.lookup_isSome, ← AList.lookup_isSome, remove_node, carried_eq_some]
    by_cases ho : t.nodeOf vip = some n ∧ n ≠ ""
    · simp [ho]
    rw [if_neg fun h => ho ⟨h.2, h.1⟩]; simp [ho]
  rw [covers_iff hc hself hother hidx]
  simp only [KeepsNodes, reduceCtorEq, false_or, not_true_eq_false, carried_eq_some t vip, and_imp]
  exact forall_congr' fun n => forall_congr' fun _ => forall_congr' fun hne => (soleCarrier_iff hne).symm

/-- Along a run of updates and removals every carried node id stays indexed exactly if no call drops
a node id that another route still carries. -/
theorem run_nodes_indexed_iff (start : Instant) (cs : List (Instant × Change)) :
    (∀ i, (stateAt changeStep (new start) cs i).NodesIndexed) ↔ Each changeStep (new start) cs
    KeepsNodes := by
  refine Machine.always_iff_each (fun v r h => by cases h) (indexed_changes start cs) ?_
  intro t ev hi hc
  obtain ⟨now, c⟩ := ev
  cases c with
  | update vip ep nodeId => exact update_nodes_iff hi hc
  | remove vip => exact remove_nodes_iff hi hc

/-- A node with two routes loses its index entry when the older route is removed. -/
theorem shared_node_unindexed : ¬ NodesIndexed (stateAt changeStep (new 0)
      [(1, .update "10.1.0.1" (.v4 0x0A000001 1) (some "n")), (2, .update "10.1.0.2" (.v4 0x0A000001 2) (some "n")),
        (3, .remove "10.1.0.1")] 3) := by
  intro h
  rw [nodesIndexed_iff (indexed_changes ..)] at h
  have hidx := h "10.1.0.2" "n" (by decide)
  exact absurd hidx (by decide)

end RoutingTable

end ConnectUnit
