import Mathlib.Data.List.ReduceOption
import ConnectUnit.Routing

/-!
# Soundness of the routing indexes

What each operation does to a lookup in each map is stated once, as an equation.
-/

open HashMap (lookup_erase_eq lookup_insert_eq lookup_modify lookup_retain mem_iff_lookup)
open Option (filter_eq_some_iff map_eq_some_iff map_map map_some)

namespace ConnectUnit

variable {e e' : RouteEntry} {ep : SocketAddr} {v : String} {f : RouteEntry → RouteEntry}
variable {n vip : String} {u : UInt32} {now : Instant} {ps : PathSet} {cg : CongestionTuning}

namespace RoutingTable

variable (t : RoutingTable)

def nodeOf (vip : String) : Option String := (t.table.lookup vip).map (·.nodeId)

/-! ## Lookups after `remove` -/

section
variable (vip : String) (now : Instant)

theorem remove_table : (t.remove vip now).table.lookup v = if v = vip then none else t.table.lookup v := by
  unfold remove clearPathEpIndexForVip
  cases h : t.table.lookup vip with
  | none =>
    by_cases hv : v = vip
    · subst hv; simp [h]
    simp [h, hv]
  | some entry => simp only [h]; exact lookup_erase_eq t.table vip v

theorem remove_ep {e : SocketAddr} : (t.remove vip now).epToVip.lookup e = if t.lookup vip = some e ∧ t.epToVip.lookup
    e = some vip then none else t.epToVip.lookup e := by
  unfold remove clearPathEpIndexForVip lookup
  cases h : t.table.lookup vip with
  | none => simp [h]
  | some entry =>
    simp only [h, map_some, Option.some.injEq]
    by_cases he : entry.endpoint = e
    · subst he
      by_cases hm : t.epToVip.lookup entry.endpoint = some vip
      · simp [hm]
      simp [hm]
    split
    · rw [lookup_erase_eq, if_neg (Ne.symm he), if_neg (fun hc => he hc.1)]
    rw [if_neg (fun hc => he hc.1)]

theorem remove_node : (t.remove vip now).nodeToVip.lookup n =
      if n ≠ "" ∧ t.nodeOf vip = some n then none else t.nodeToVip.lookup n := by
  unfold remove clearPathEpIndexForVip nodeOf
  cases h : t.table.lookup vip with
  | none => simp [h]
  | some entry =>
    simp only [h, map_some, Option.some.injEq]
    by_cases hn : entry.nodeId = ""
    · rw [if_neg (by simpa using hn), if_neg (by rintro ⟨h1, h2⟩; exact h1 (h2 ▸ hn))]
    rw [if_pos hn, lookup_erase_eq]
    by_cases he : n = entry.nodeId
    · rw [if_pos he, if_pos ⟨he ▸ hn, he.symm⟩]
    rw [if_neg he, if_neg (fun hc => he hc.2.symm)]

theorem remove_vipU32 : (t.remove vip now).vipU32ToVip.lookup u = if ipv4ToU32 vip = some u then none
    else t.vipU32ToVip.lookup u := by
  unfold remove clearPathEpIndexForVip
  cases h : t.table.lookup vip <;> cases hu : ipv4ToU32 vip <;>
    simp only [h, lookup_erase_eq, Option.some.injEq, reduceCtorEq, if_false, eq_comm]

theorem remove_path {e : SocketAddr} :
    (t.remove vip now).pathEpToVip.lookup e = (t.pathEpToVip.lookup e).filter fun v => v ≠ vip := by
  rw [← lookup_retain t.pathEpToVip (fun _ v => v ≠ vip)]
  unfold remove clearPathEpIndexForVip
  cases h : t.table.lookup vip <;> simp only [h]

theorem remove_tombstones : (t.remove vip now).tombstones.lookup v = if v = vip then some
    (t.revision + 1, now) else t.tombstones.lookup v := by
  rw [← lookup_insert_eq t.tombstones vip v]
  unfold remove clearPathEpIndexForVip
  cases h : t.table.lookup vip <;> simp only [h]

end

/-! ## Secondary endpoints -/

theorem mem_secondaryEndpoints_ne (h : ep ∈ secondaryEndpoints e) : ep ≠ e.endpoint := by
  simpa using (List.mem_filter.mp h).2

theorem mem_secondaryEndpoints_path (h : ep ∈ secondaryEndpoints e) :
    ∃ ps p, e.pathSet = some ps ∧ some p ∈ ps.paths ∧ p.endpoint = ep := by
  have hmem := List.reduceOption_mem_iff.mp (List.mem_filter.mp h).1
  unfold RouteEntry.pathEndpoints at hmem
  cases hps : e.pathSet with
  | none => rw [hps] at hmem; cases hmem
  | some ps =>
    rw [hps] at hmem
    obtain ⟨o, ho, hoe⟩ := List.mem_map.mp hmem
    obtain ⟨p, rfl, hpe⟩ := map_eq_some_iff.mp hoe
    exact ⟨ps, p, rfl, ho, hpe⟩

/-! ## Lookups after `place` -/

def placedNode (vip : String) (nodeId : Option String) : String := nodeId.getD ((t.nodeOf vip).getD "")

theorem rebuild_path {e : SocketAddr} : (t.rebuildPathEpIndexForVip vip).pathEpToVip.lookup e = if ∃
    entry, t.table.lookup vip = some entry ∧ e ∈ secondaryEndpoints entry then some vip else
    (t.pathEpToVip.lookup e).filter fun v => v ≠ vip := by
  unfold rebuildPathEpIndexForVip clearPathEpIndexForVip
  cases h : t.table.lookup vip with
  | none => simp [h, lookup_retain]
  | some entry =>
    simp only [h, HashMap.lookup_foldl_insert, lookup_retain, Option.some.injEq, exists_eq_left']

theorem rebuild_eq : t.rebuildPathEpIndexForVip vip =
      { t with pathEpToVip := (t.rebuildPathEpIndexForVip vip).pathEpToVip } := by
  unfold rebuildPathEpIndexForVip clearPathEpIndexForVip
  cases h : t.table.lookup vip <;> simp [h]

section
variable (vip : String) (ep : SocketAddr) (nodeId : Option String) (now : Instant)

theorem place_table : (t.place vip ep nodeId now).table.lookup v = if v = vip then
    (t.place vip ep nodeId now).table.lookup vip else t.table.lookup v := by
  unfold place
  rw [rebuild_eq]
  simp only [lookup_insert_eq]
  by_cases hv : v = vip
  · simp [hv]
  simp [hv]

theorem place_lookup_self : (t.place vip ep nodeId now).lookup vip = some ep := by
  unfold lookup place
  rw [rebuild_eq]
  simp only [lookup_insert_eq, if_true, map_some]
  split <;> rfl

theorem place_nodeOf_self : (t.place vip ep nodeId now).nodeOf vip = some (t.placedNode vip nodeId) := by
  unfold place placedNode nodeOf
  rw [rebuild_eq]
  simp only [lookup_insert_eq, if_true, map_some]
  cases h : t.table.lookup vip <;> split <;> rfl

theorem place_ep {e : SocketAddr} : (t.place vip ep nodeId now).epToVip.lookup e = if e = ep then some vip else if
    t.lookup vip = some e then none else t.epToVip.lookup e := by
  unfold place lookup
  rw [rebuild_eq]
  simp only [lookup_insert_eq]
  cases h : t.table.lookup vip with
  | none => simp
  | some o => simp [lookup_erase_eq, eq_comm]

theorem place_node : (t.place vip ep nodeId now).nodeToVip.lookup n =
      if n ≠ "" ∧ n = t.placedNode vip nodeId then some vip
      else if n ≠ "" ∧ t.nodeOf vip = some n then none
      else t.nodeToVip.lookup n := by
  have hself := t.place_nodeOf_self vip ep nodeId now
  unfold place nodeOf at *
  rw [rebuild_eq] at hself ⊢
  simp only [lookup_insert_eq, if_true, map_some, Option.some.injEq] at hself
  simp only [hself]
  generalize t.placedNode vip nodeId = new
  by_cases hnew : n ≠ "" ∧ n = new
  · obtain ⟨hn, rfl⟩ := hnew
    rw [if_pos hn, if_pos ⟨hn, rfl⟩, lookup_insert_eq, if_pos rfl]
  rw [if_neg hnew]
  -- away from the new node id only the erasure of the old one is left to see
  have hskip : ∀ m : HashMap String String, (if new ≠ "" then m.insert new vip else m).lookup n = m.lookup n := by
    intro m
    split
    · rename_i h
      have hne : n ≠ new := fun hc => hnew ⟨hc ▸ h, hc⟩
      rw [lookup_insert_eq, if_neg hne]
    · rfl
  rw [hskip]
  cases h : t.table.lookup vip with
  | none => simp
  | some o =>
    simp only [map_some, Option.some.injEq]
    by_cases ho : n ≠ "" ∧ o.nodeId = n
    · obtain ⟨hn, rfl⟩ := ho
      have hne : new ≠ o.nodeId := fun hc => hnew ⟨hn, hc.symm⟩
      rw [if_pos ⟨hn, hne⟩, if_pos ⟨hn, rfl⟩, lookup_erase_eq, if_pos rfl]
    rw [if_neg ho]
    split
    · rename_i hc
      have hne : n ≠ o.nodeId := fun he => ho ⟨he ▸ hc.1, he.symm⟩
      rw [lookup_erase_eq, if_neg hne]
    · rfl

theorem place_vipU32 : (t.place vip ep nodeId now).vipU32ToVip.lookup u = if ipv4ToU32 vip = some u then
    some vip else t.vipU32ToVip.lookup u := by
  unfold place
  rw [rebuild_eq]
  cases h : ipv4ToU32 vip with
  | none => simp
  | some w => simp [lookup_insert_eq, eq_comm]

theorem place_tombstones :
    (t.place vip ep nodeId now).tombstones.lookup v = if v = vip then none else t.tombstones.lookup v := by
  unfold place
  rw [rebuild_eq]
  exact lookup_erase_eq t.tombstones vip v

theorem place_path {e : SocketAddr} : (t.place vip ep nodeId now).pathEpToVip.lookup e = if ∃ entry,
    (t.place vip ep nodeId now).table.lookup vip = some entry ∧ e ∈ secondaryEndpoints entry then some vip else
    (t.pathEpToVip.lookup e).filter fun v => v ≠ vip := by
  unfold place
  rw [rebuild_path, rebuild_eq]

end

theorem remove_lookup (h : v ≠ vip) : (t.remove vip now).lookup v = t.lookup v := by
  unfold lookup; rw [remove_table, if_neg h]

theorem remove_nodeOf (h : v ≠ vip) : (t.remove vip now).nodeOf v = t.nodeOf v := by
  unfold nodeOf; rw [remove_table, if_neg h]

theorem mem_remove : v ∈ (t.remove vip now).table ↔ v ≠ vip ∧ v ∈ t.table := by
  rw [← AList.lookup_isSome, ← AList.lookup_isSome, remove_table]
  by_cases h : v = vip
  · simp [h]
  simp [h]

section
variable (vip : String) (ep : SocketAddr) (nodeId : Option String) (now : Instant)

theorem place_lookup (h : v ≠ vip) : (t.place vip ep nodeId now).lookup v = t.lookup v := by
  unfold lookup; rw [place_table, if_neg h]

theorem place_nodeOf (h : v ≠ vip) : (t.place vip ep nodeId now).nodeOf v = t.nodeOf v := by
  unfold nodeOf; rw [place_table, if_neg h]

theorem mem_of_lookup {e : SocketAddr} (h : t.lookup v = some e) : v ∈ t.table := by
  obtain ⟨entry, hentry, _⟩ := map_eq_some_iff.mp h
  exact (mem_iff_lookup t.table).mpr ⟨entry, hentry⟩

theorem mem_place : v ∈ (t.place vip ep nodeId now).table ↔ v = vip ∨ v ∈ t.table := by
  by_cases h : v = vip
  · subst h
    exact iff_of_true (mem_of_lookup _ (place_lookup_self t v ep nodeId now)) (.inl rfl)
  rw [← AList.lookup_isSome, ← AList.lookup_isSome, place_table, if_neg h]
  simp [h]

end

/-! ## The index invariant -/

/-- Every index entry points at a route that has the indexed value. -/
structure Indexed (t : RoutingTable) : Prop where
  ep : ∀ {e v}, t.epToVip.lookup e = some v → t.lookup v = some e
  node : ∀ {n v}, t.nodeToVip.lookup n = some v → t.nodeOf v = some n
  nodeNonempty : ∀ {n v}, t.nodeToVip.lookup n = some v → n ≠ ""
  vipU32 : ∀ {u v}, t.vipU32ToVip.lookup u = some v ↔ v ∈ t.table ∧ ipv4ToU32 v = some u
  path : ∀ {e v}, t.pathEpToVip.lookup e = some v →
    ∃ entry, t.table.lookup v = some entry ∧ e ∈ secondaryEndpoints entry
  live : ∀ {v}, v ∈ t.table → t.tombstones.lookup v = none

theorem indexed_new : Indexed (new now) where
  ep h := by cases h
  node h := by cases h
  nodeNonempty h := by cases h
  vipU32 := by simp [new]
  path h := by cases h
  live h := by cases h

namespace Indexed

variable {t}

section
variable (h : Indexed t)
include h

theorem remove (vip : String) (now : Instant) : Indexed (t.remove vip now) where
  ep {e v} he := by
    rw [remove_ep] at he
    split at he
    · cases he
    rename_i hc
    have hv : v ≠ vip := by rintro rfl; exact hc ⟨h.ep he, he⟩
    rw [remove_lookup t hv]; exact h.ep he
  node {n v} hn := by
    rw [remove_node] at hn
    split at hn
    · cases hn
    rename_i hc
    have hv : v ≠ vip := by rintro rfl; exact hc ⟨h.nodeNonempty hn, h.node hn⟩
    rw [remove_nodeOf t hv]; exact h.node hn
  nodeNonempty {n v} hn := by
    rw [remove_node] at hn
    split at hn
    · cases hn
    exact h.nodeNonempty hn
  vipU32 {u v} := by
    rw [remove_vipU32, mem_remove]
    split
    · rename_i hu
      -- no other virtual IP denotes the same address
      constructor
      · intro hc; cases hc
      rintro ⟨⟨hne, _⟩, hv⟩; exact absurd (ipv4ToU32_inj hv hu) hne
    rename_i hu
    rw [h.vipU32]
    refine ⟨fun ⟨hv, hvu⟩ => ⟨⟨?_, hv⟩, hvu⟩, fun ⟨⟨_, hv⟩, hvu⟩ => ⟨hv, hvu⟩⟩
    rintro rfl; exact hu hvu
  path {e v} he := by
    rw [remove_path, filter_eq_some_iff] at he
    have hv : v ≠ vip := by simpa using he.2
    rw [remove_table, if_neg hv]; exact h.path he.1
  live {v} hv := by
    rw [mem_remove] at hv
    rw [remove_tombstones, if_neg hv.1]; exact h.live hv.2

theorem place {nodeId : Option String} : Indexed (t.place vip ep nodeId now) where
  ep {e v} he := by
    rw [place_ep] at he
    split at he
    · rename_i hep
      cases he; subst hep
      exact place_lookup_self t vip e nodeId now
    split at he
    · cases he
    rename_i hc
    have hv : v ≠ vip := by rintro rfl; exact hc (h.ep he)
    rw [place_lookup t vip ep nodeId now hv]; exact h.ep he
  node {n v} hn := by
    rw [place_node] at hn
    split at hn
    · rename_i hnew
      cases hn
      rw [place_nodeOf_self, hnew.2]
    split at hn
    · cases hn
    rename_i hc
    have hv : v ≠ vip := by rintro rfl; exact hc ⟨h.nodeNonempty hn, h.node hn⟩
    rw [place_nodeOf t vip ep nodeId now hv]; exact h.node hn
  nodeNonempty {n v} hn := by
    rw [place_node] at hn
    split at hn
    · rename_i hnew; exact hnew.1
    split at hn
    · cases hn
    exact h.nodeNonempty hn
  vipU32 {u v} := by
    rw [place_vipU32, mem_place]
    split
    · rename_i hu
      constructor
      · intro hv; cases hv; exact ⟨.inl rfl, hu⟩
      intro hv; rw [ipv4ToU32_inj hv.2 hu]
    rename_i hu
    rw [h.vipU32]
    refine ⟨fun ⟨hv, hvu⟩ => ⟨.inr hv, hvu⟩, fun ⟨hv, hvu⟩ => ⟨hv.resolve_left ?_, hvu⟩⟩
    rintro rfl; exact hu hvu
  path {e v} he := by
    rw [place_path] at he
    split at he
    · rename_i hsec; cases he; exact hsec
    rw [filter_eq_some_iff] at he
    have hv : v ≠ vip := by simpa using he.2
    rw [place_table, if_neg hv]; exact h.path he.1
  live {v} hv := by
    rw [mem_place] at hv
    rw [place_tombstones]
    split
    · rfl
    rename_i hne; exact h.live (hv.resolve_left hne)

theorem pruneTombstones {retainVips : List String} : Indexed (t.pruneTombstones retainVips now) where
  ep := h.ep
  node := h.node
  nodeNonempty := h.nodeNonempty
  vipU32 := h.vipU32
  path := h.path
  live {v} hv := by
    unfold RoutingTable.pruneTombstones
    rw [lookup_retain, h.live hv]; rfl

theorem dropEp (ep : SocketAddr) : Indexed { t with epToVip := t.epToVip.erase ep } where
  ep {e v} he := by
    rw [lookup_erase_eq] at he
    split at he
    · cases he
    exact h.ep he
  node := h.node
  nodeNonempty := h.nodeNonempty
  vipU32 := h.vipU32
  path := h.path
  live := h.live

theorem pruneIfDue (now : Instant) : Indexed (t.pruneIfDue now) := by
  unfold RoutingTable.pruneIfDue
  split
  · exact h.pruneTombstones
  exact h

theorem update (vip : String) (ep : SocketAddr) (nodeId : Option String) (now : Instant) :
    Indexed (t.update vip ep nodeId now) := by
  have hp := h.pruneIfDue now
  unfold RoutingTable.update
  dsimp only
  split
  · exact hp.place
  · exact hp
  · exact (hp.remove _ now).place
  · exact (hp.dropEp ep).place

end

end Indexed

/-! ## Operations that keep a route's endpoints -/

structure SameKeys (e e' : RouteEntry) : Prop where
  endpoint : e.endpoint = e'.endpoint
  nodeId : e.nodeId = e'.nodeId
  paths : e.pathEndpoints = e'.pathEndpoints

theorem SameKeys.secondary (h : SameKeys e e') : secondaryEndpoints e = secondaryEndpoints e' := by
  unfold secondaryEndpoints; rw [h.endpoint, h.paths]

theorem reselectActive_endpoints {adv : Bool} : (ps.reselectActive adv now).endpoints = ps.endpoints := by
  unfold PathSet.reselectActive
  dsimp only
  split
  · rfl
  split
  · rfl
  split
  · rfl
  split
  · split
    · split <;> rfl
    · rfl
  · rfl

theorem noteFirst_endpoints {f : PathCandidate → PathCandidate}
    (hf : ∀ p, (f p).endpoint = p.endpoint) : (ps.noteFirst ep f).endpoints = ps.endpoints := by
  have hmap : ∀ o : Option PathCandidate, (o.map f).map (·.endpoint) = o.map (·.endpoint) := by
    intro o; cases o <;> simp [hf]
  unfold PathSet.noteFirst
  split
  · simp only [PathSet.endpoints, PathSet.paths, List.map_cons, hmap]
  split
  · simp only [PathSet.endpoints, PathSet.paths, List.map_cons, hmap]
  split
  · simp only [PathSet.endpoints, PathSet.paths, List.map_cons, hmap]
  rfl

theorem pathEndpoints_map {f : PathSet → PathSet} (hf : ∀ ps, (f ps).endpoints = ps.endpoints) :
    RouteEntry.pathEndpoints { e with pathSet := e.pathSet.map f } = e.pathEndpoints := by
  unfold RouteEntry.pathEndpoints
  cases e.pathSet with
  | none => rfl
  | some ps => exact hf ps

theorem SameKeys.refl (e : RouteEntry) : SameKeys e e := ⟨rfl, rfl, rfl⟩

theorem SameKeys.trans {e'' : RouteEntry} (h : SameKeys e e') (h' : SameKeys e' e'') : SameKeys e e'' :=
  ⟨h.endpoint.trans h'.endpoint, h.nodeId.trans h'.nodeId, h.paths.trans h'.paths⟩

theorem updateRttBaseOnSample_frame (e : RouteEntry) (x : ℚ) (now : Instant) (cg : CongestionTuning) :
    ∃ base wmin start stale delay, e.updateRttBaseOnSample x now cg = { e with
        rttBaseMs := base, rttBaseWindowMin := wmin, rttBaseWindowStart := start, rttBaseStaleCount := stale
        queuingDelayMs := delay } := by
  have hrefresh : ∀ e : RouteEntry, ∃ delay, e.refreshQueuingDelay = { e with queuingDelayMs := delay } := by
    intro e
    unfold RouteEntry.refreshQueuingDelay
    split
    · exact ⟨_, rfl⟩
    exact ⟨_, rfl⟩
  have hadopt :
      ∀ w, ∃ base stale, e.adoptRttWindow w cg = { e with rttBaseMs := base, rttBaseStaleCount := stale } := by
    intro w
    unfold RouteEntry.adoptRttWindow
    dsimp only
    split
    · exact ⟨_, _, rfl⟩
    split
    · split <;> exact ⟨_, _, rfl⟩
    exact ⟨_, _, rfl⟩
  unfold RouteEntry.updateRttBaseOnSample
  dsimp only
  split
  · exact ⟨_, _, _, _, _, rfl⟩
  split
  · exact ⟨_, _, _, _, _, rfl⟩
  split
  · obtain ⟨base, stale, h⟩ := hadopt (windowMin e.rttBaseWindowMin x)
    obtain ⟨delay, h'⟩ := hrefresh { e.adoptRttWindow (windowMin e.rttBaseWindowMin x) cg with
      rttBaseWindowMin := none, rttBaseWindowStart := now }
    rw [h', h]
    exact ⟨_, _, _, _, _, rfl⟩
  obtain ⟨delay, h⟩ := hrefresh { e with rttBaseWindowMin := some (windowMin e.rttBaseWindowMin x) }
  rw [h]
  exact ⟨_, _, _, _, _, rfl⟩

theorem updateRttBaseOnSample_keys {x : ℚ} : SameKeys (e.updateRttBaseOnSample x now cg) e := by
  obtain ⟨_, _, _, _, _, h⟩ := updateRttBaseOnSample_frame e x now cg
  rw [h]
  exact ⟨rfl, rfl, rfl⟩

theorem applyRttSample_keys {rttMs : Int} {fo : FailoverTuning}
    {ewma : RoutingEwmaTuning} : SameKeys (e.applyRttSample rttMs fo cg ewma now) e := by
  have hgrade : ∀ e : RouteEntry, SameKeys (e.gradeState fo) e := by
    intro e
    unfold RouteEntry.gradeState
    split
    · exact ⟨rfl, rfl, rfl⟩
    split <;> exact ⟨rfl, rfl, rfl⟩
  have hhold : ∀ e : RouteEntry, SameKeys (e.releaseHold fo) e := by
    intro e
    unfold RouteEntry.releaseHold
    split <;> exact ⟨rfl, rfl, rfl⟩
  have hscore : ∀ e : RouteEntry, SameKeys (e.scoreSample rttMs ewma) e := fun _ => ⟨rfl, rfl, rfl⟩
  have havg : SameKeys (e.averageSample rttMs ewma) e := ⟨rfl, rfl, rfl⟩
  exact (hhold _).trans ((hgrade _).trans ((hscore _).trans ((updateRttBaseOnSample_keys).trans havg)))

theorem noteRtt_keys (e : RouteEntry) (fromEp : SocketAddr) (rttMs : Int) (fo : FailoverTuning)
    (cg : CongestionTuning) (ewma : RoutingEwmaTuning) (now : Instant) :
    SameKeys (e.noteRtt fromEp rttMs fo cg ewma now) e := by
  have hactive : ∀ e : RouteEntry, SameKeys (e.noteActiveRtt rttMs fo cg ewma now) e := by
    intro e
    unfold RouteEntry.noteActiveRtt
    split <;> exact (applyRttSample_keys).trans ⟨rfl, rfl, rfl⟩
  have hps : ∀ ps : PathSet,
      ((ps.noteRttForEndpoint fromEp rttMs ewma now).reselectActive false now).endpoints = ps.endpoints := by
    intro ps
    rw [reselectActive_endpoints]
    exact noteFirst_endpoints fun _ => rfl
  unfold RouteEntry.noteRtt
  dsimp only
  split
  · have h : SameKeys (RouteEntry.noteActiveRtt { e with lastSeen := now } rttMs fo cg ewma now) e :=
      (hactive _).trans ⟨rfl, rfl, rfl⟩
    exact ⟨h.endpoint, h.nodeId, (pathEndpoints_map hps).trans h.paths⟩
  · exact ⟨rfl, rfl, pathEndpoints_map hps⟩

theorem noteFail_keys (fromEp : SocketAddr) (ewma : RoutingEwmaTuning) (now : Instant) :
    SameKeys (e.noteFail fromEp ewma now) e := by
  refine ⟨rfl, rfl, pathEndpoints_map (f := fun ps => _) fun ps => ?_⟩
  rw [reselectActive_endpoints]
  exact noteFirst_endpoints fun _ => rfl

theorem noteBytesReceived_keys (ep : SocketAddr) (bytes : Nat) (adv : Bool)
    (ewma : RoutingEwmaTuning) (now : Instant) : SameKeys (e.noteBytesReceived ep bytes adv ewma now) e := by
  unfold RouteEntry.noteBytesReceived
  dsimp only
  split
  · refine ⟨rfl, rfl, pathEndpoints_map (f := fun ps => _) fun ps => ?_⟩
    rw [reselectActive_endpoints]
    refine noteFirst_endpoints fun p => ?_
    unfold PathCandidate.noteBandwidth
    split <;> rfl
  · exact ⟨rfl, rfl, rfl⟩

theorem updateOwdBaseOnSample_frame (e : RouteEntry) (owd rttMs : ℚ) (now : Instant) (cg : CongestionTuning) :
    ∃ base wmin start stale delay resid samples, (e.updateOwdBaseOnSample owd rttMs now cg).1 = { e with
        owdBaseMs := base, owdBaseWindowMin := wmin, owdBaseWindowStart := start, owdBaseStaleCount := stale
        fwdQueuingDelayMs := delay, owdRttResidualEwma := resid, owdSamplesSinceCold := samples } := by
  have hadopt : ∀ base w, ∃ base' stale, (e.adoptOwdWindow base w cg).1 =
      { e with owdBaseMs := base', owdBaseStaleCount := stale } := by
    intro base w
    unfold RouteEntry.adoptOwdWindow
    dsimp only
    split
    · exact ⟨_, _, rfl⟩
    split
    · split <;> exact ⟨_, _, rfl⟩
    exact ⟨_, _, rfl⟩
  have hwarm : ∀ base, ∃ base' wmin start stale delay, e.warmOwdSample base owd now cg = { e with
        owdBaseMs := base', owdBaseWindowMin := wmin, owdBaseWindowStart := start, owdBaseStaleCount := stale
        fwdQueuingDelayMs := delay } := by
    intro base
    unfold RouteEntry.warmOwdSample
    dsimp only
    split
    · obtain ⟨base', stale, h⟩ := hadopt base (windowMin e.owdBaseWindowMin owd)
      rw [h]
      exact ⟨_, _, _, _, _, rfl⟩
    · exact ⟨_, _, _, _, _, rfl⟩
  unfold RouteEntry.updateOwdBaseOnSample
  split
  · exact ⟨_, _, _, _, _, _, _, rfl⟩
  split
  · exact ⟨_, _, _, _, _, _, _, rfl⟩
  split
  · exact ⟨_, _, _, _, _, _, _, rfl⟩
  rename_i base _
  obtain ⟨_, _, _, _, _, h⟩ := hwarm base
  rw [h]
  exact ⟨_, _, _, _, _, _, _, rfl⟩

theorem updateOwdBaseOnSample_keys (e : RouteEntry) (owd rttMs : ℚ) (now : Instant) (cg : CongestionTuning) :
    SameKeys (e.updateOwdBaseOnSample owd rttMs now cg).1 e := by
  obtain ⟨_, _, _, _, _, _, _, h⟩ := updateOwdBaseOnSample_frame e owd rttMs now cg
  rw [h]
  exact ⟨rfl, rfl, rfl⟩

/-! ## Operations that leave the routes in place -/

variable {t}

theorem onEntry_lookup (vip : String) (hf : ∀ e, (f e).endpoint = e.endpoint)
    (v : String) : (t.onEntry vip f).lookup v = t.lookup v := by
  unfold lookup onEntry
  rw [lookup_modify]
  split
  · rename_i hv; subst hv; simp [Function.comp_def, hf]
  rfl

theorem onEntry_nodeOf (vip : String) (hf : ∀ e, (f e).nodeId = e.nodeId)
    (v : String) : (t.onEntry vip f).nodeOf v = t.nodeOf v := by
  unfold nodeOf onEntry
  rw [lookup_modify]
  split
  · rename_i hv; subst hv; simp [Function.comp_def, hf]
  rfl

theorem mem_iff_lookup_isSome {t : RoutingTable} : v ∈ t.table ↔ (t.lookup v).isSome := by
  unfold lookup
  rw [Option.isSome_map, AList.lookup_isSome]

namespace Indexed

section
variable (h : Indexed t)
include h

theorem of_same_routes {t' : RoutingTable} (hl : ∀ v, t'.lookup v = t.lookup v)
    (hn : ∀ v, t'.nodeOf v = t.nodeOf v) (hep : t'.epToVip = t.epToVip) (hnode : t'.nodeToVip = t.nodeToVip)
    (hu : t'.vipU32ToVip = t.vipU32ToVip) (htomb : t'.tombstones = t.tombstones)
    (hpath : ∀ {e v}, t'.pathEpToVip.lookup e = some v →
      ∃ entry, t'.table.lookup v = some entry ∧ e ∈ secondaryEndpoints entry) : Indexed t' where
  ep he := by rw [hl]; rw [hep] at he; exact h.ep he
  node hv := by rw [hn]; rw [hnode] at hv; exact h.node hv
  nodeNonempty hv := by rw [hnode] at hv; exact h.nodeNonempty hv
  vipU32 {u v} := by
    rw [hu, h.vipU32, mem_iff_lookup_isSome, mem_iff_lookup_isSome, hl]
  path := hpath
  live {v} hv := by
    rw [mem_iff_lookup_isSome, hl, ← mem_iff_lookup_isSome] at hv
    rw [htomb]; exact h.live hv

theorem onEntry (hf : ∀ e, SameKeys (f e) e) : Indexed (t.onEntry vip f) := by
  refine h.of_same_routes (onEntry_lookup vip fun e => (hf e).endpoint)
    (onEntry_nodeOf vip fun e => (hf e).nodeId) rfl rfl rfl rfl ?_
  intro e v he
  obtain ⟨entry, hentry, hmem⟩ := h.path (e := e) (v := v) he
  unfold RoutingTable.onEntry
  rw [lookup_modify]
  split
  · rename_i hv; subst hv
    exact ⟨f entry, by rw [hentry]; rfl, (hf entry).secondary ▸ hmem⟩
  exact ⟨entry, hentry, hmem⟩

theorem onVip {vip : Option String} (hf : ∀ e, SameKeys (f e) e) : Indexed (t.onVip vip f) := by
  cases vip with
  | none => exact h
  | some vip => exact h.onEntry hf

theorem rebuild (hep : ∀ e, (f e).endpoint = e.endpoint)
    (hnode : ∀ e, (f e).nodeId = e.nodeId) : Indexed ((t.onEntry vip f).rebuildPathEpIndexForVip vip) := by
  have hpath : ∀ {e v}, ((t.onEntry vip f).rebuildPathEpIndexForVip vip).pathEpToVip.lookup e = some v →
      ∃ entry, (t.onEntry vip f).table.lookup v = some entry ∧ e ∈ secondaryEndpoints entry := by
    intro e v he
    rw [rebuild_path] at he
    split at he
    · rename_i hsec; cases he; exact hsec
    rw [filter_eq_some_iff] at he
    have hv : v ≠ vip := by simpa using he.2
    unfold RoutingTable.onEntry
    rw [lookup_modify, if_neg hv]
    exact h.path he.1
  have hlookup := onEntry_lookup (t := t) vip hep
  have hnodeOf := onEntry_nodeOf (t := t) vip hnode
  rw [rebuild_eq]
  exact h.of_same_routes hlookup hnodeOf rfl rfl rfl rfl hpath

theorem clearRelayPath : Indexed (t.clearRelayPath vip) := h.rebuild (fun _ => rfl) fun _ => rfl

theorem stampRelayHop {hop : SocketAddr} : Indexed (t.stampRelayHop vip hop now) := by
  unfold RoutingTable.stampRelayHop
  split
  · exact h
  exact h.rebuild (fun _ => rfl) fun _ => rfl

theorem markStaleIfIdle {idle : Nat} : Indexed (t.markStaleIfIdle idle now) := by
  let f : RouteEntry → RouteEntry := fun e =>
    if now - e.lastSeen > idle ∧ e.state ≠ .stale then { e with state := .stale } else e
  have hf : ∀ e, SameKeys (f e) e := by
    intro e
    by_cases hc : now - e.lastSeen > idle ∧ e.state ≠ .stale
    · simp only [f, if_pos hc]; exact ⟨rfl, rfl, rfl⟩
    simp only [f, if_neg hc]; exact .refl e
  have htab : ∀ v, (t.markStaleIfIdle idle now).table.lookup v = (t.table.lookup v).map f :=
    HashMap.lookup_mapVals t.table f
  refine h.of_same_routes (fun v => ?_) (fun v => ?_) rfl rfl rfl rfl ?_
  · unfold RoutingTable.lookup
    rw [htab, map_map]
    exact congrArg (Option.map · _) (funext fun e => (hf e).endpoint)
  · unfold nodeOf
    rw [htab, map_map]
    exact congrArg (Option.map · _) (funext fun e => (hf e).nodeId)
  intro e v he
  obtain ⟨entry, hentry, hmem⟩ := h.path (e := e) (v := v) he
  exact ⟨f entry, by rw [htab, hentry]; rfl, (hf entry).secondary ▸ hmem⟩

theorem promoteStaleIfNeeded : Indexed (t.promoteStaleIfNeeded ep now) := by
  refine h.onVip fun e => ?_
  split
  · exact ⟨rfl, rfl, rfl⟩
  exact .refl e

end

theorem drainAll (now : Instant) (victims : List String) (acc : RoutingTable × List (String × SocketAddr × String))
    (h : Indexed acc.1) : Indexed (victims.foldl (drainOne now) acc).1 := by
  refine List.foldlRecOn (motive := fun acc : RoutingTable × _ => Indexed acc.1) victims _ h fun acc h vip _ => ?_
  unfold drainOne
  split
  · exact h.remove vip now
  exact h

theorem drainVipsOutsideSubnet (h : Indexed t) {myVip : String} {pre : Nat} {order : List String} :
    Indexed (t.drainVipsOutsideSubnet myVip pre order now).1 := by
  unfold RoutingTable.drainVipsOutsideSubnet
  split
  · exact h
  exact drainAll now _ (t, []) h

theorem foldl {α : Type} {f : RoutingTable → α → RoutingTable} (hf : ∀ {t} (a : α), Indexed t → Indexed (f t a))
    {as : List α} (h : Indexed t) : Indexed (as.foldl f t) :=
  List.foldlRecOn as f h fun _ ht a _ => hf a ht

theorem apply (h : Indexed t) {op : Op} : Indexed (t.apply now op) := by
  have seen : ∀ (ts : Instant) (e : RouteEntry), SameKeys { e with lastSeen := ts } e := fun _ _ => ⟨rfl, rfl, rfl⟩
  cases op with
  | update vip ep nodeId => exact h.update vip ep nodeId now
  | remove vip => exact h.remove vip now
  | drainVipsOutsideSubnet myVip pre order => exact h.drainVipsOutsideSubnet
  | evictOldStale age order => exact foldl (fun vip ht => ht.remove vip now) h
  | stampRelayHop vip hop => exact h.stampRelayHop
  | clearRelayPath vip => exact h.clearRelayPath
  | noteRtt fromEp rttMs ignore => exact h.onVip fun e => noteRtt_keys e ..
  | noteFwdOwd fromEp owd rttMs ignore =>
    refine h.onVip fun e => ?_
    split
    · exact updateOwdBaseOnSample_keys e ..
    exact .refl e
  | noteFail fromEp ignore => exact h.onVip fun e => noteFail_keys ..
  | noteBytesReceived fromEp bytes adv ignore => exact h.onVip fun e => noteBytesReceived_keys ..
  | noteBytesReceivedForVipU32 dst bytes adv => exact h.onVip fun e => noteBytesReceived_keys ..
  | noteBytesReceivedBatch batch adv ignore =>
    exact foldl (fun a ht => ht.onVip fun e => noteBytesReceived_keys ..) h
  | noteRelayFallback vip =>
    refine h.onEntry fun e => ?_
    unfold RouteEntry.noteRelayFallback
    split <;> exact ⟨rfl, rfl, rfl⟩
  | beginTransition vip oldEp oldKind window =>
    refine h.onEntry fun e => ?_
    unfold RouteEntry.beginTransition
    split <;> exact ⟨rfl, rfl, rfl⟩
  | endTransition vip => exact h.onEntry fun _ => ⟨rfl, rfl, rfl⟩
  | applyLastSeenBatch batch => exact foldl (fun a ht => ht.onVip (seen a.2)) h
  | touchEndpoint ep => exact (h.onVip (seen now)).promoteStaleIfNeeded
  | promoteStaleIfNeeded ep => exact h.promoteStaleIfNeeded
  | markStaleIfIdle idle => exact h.markStaleIfIdle
  | pruneTombstones retainVips => exact h.pruneTombstones
  | setTuning fo cg ewma => exact h.of_same_routes (fun _ => rfl) (fun _ => rfl) rfl rfl rfl rfl h.path

end Indexed

theorem indexed_run {start : Instant} {ops : List (Instant × Op)} {i : Nat} :
    Indexed (Machine.stateAt step (new start) ops i) :=
  Machine.invariant_all indexed_new (fun _ _ h => h.apply) i

/-- All along every run of calls on a new table, the five indexes are sound. -/
theorem run_index_sound (start : Instant) (ops : List (Instant × Op)) (i : Nat) :
    let t := Machine.stateAt step (new start) ops i
    (∀ e v, t.epToVip.lookup e = some v → ∃ r, t.table.lookup v = some r ∧ r.endpoint = e) ∧
    (∀ n v, t.nodeToVip.lookup n = some v → ∃ r, t.table.lookup v = some r ∧ r.nodeId = n) ∧
    (∀ u v, t.vipU32ToVip.lookup u = some v ↔ v ∈ t.table ∧ ipv4ToU32 v = some u) ∧
    (∀ e v, t.pathEpToVip.lookup e = some v → ∃ r ps p, t.table.lookup v = some r ∧ r.pathSet = some ps ∧
      some p ∈ ps.paths ∧ p.endpoint = e ∧ e ≠ r.endpoint) ∧
    (∀ v, v ∈ t.table → v ∉ t.tombstones) := by
  intro t
  have h : Indexed t := indexed_run
  refine ⟨fun e v he => map_eq_some_iff.mp (h.ep he), fun n v hn => map_eq_some_iff.mp (h.node hn),
    fun u v => h.vipU32, fun e v he => ?_, fun v hv htomb => ?_⟩
  · obtain ⟨r, hr, hmem⟩ := h.path he
    obtain ⟨ps, p, hps, hp, hpe⟩ := mem_secondaryEndpoints_path hmem
    exact ⟨r, ps, p, hr, hps, hp, hpe, mem_secondaryEndpoints_ne hmem⟩
  obtain ⟨stone, hstone⟩ := (mem_iff_lookup _).mp htomb
  rw [h.live hv] at hstone; cases hstone

end RoutingTable

end ConnectUnit
