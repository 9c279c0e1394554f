import Mathlib.Data.List.Pairwise
import ConnectUnit.ConfigStore

/-!
# The member roster

The configuration keeps a row for each known member. Rows are keyed by node id, or by virtual IP where there is none.
-/

namespace ConnectUnit.ConfigStore

def memberRosterMax : Nat := 64

structure PeerInfo where
  nodeId : String
  name : String
  virtualIp : String
  realIp : String
  vipEpoch : Nat
  deriving DecidableEq, Repr

structure Identity (β : Type) where
  peers : List PeerInfo
  rest : β

def replaceFirst (key : PeerInfo → Bool) (peer : PeerInfo) : List PeerInfo → List PeerInfo
  | [] => []
  | p :: peers => if key p then peer :: peers else p :: replaceFirst key peer peers

def makeRoom : List PeerInfo → List PeerInfo
  | [] => []
  | p :: peers => if peers.length + 1 ≥ memberRosterMax then makeRoom peers else p :: peers

namespace ConfigManager

section
variable {β π ρ : Type} (toml : Toml (Identity β) π ρ) (m : ConfigManager (Identity β) π ρ)

def peers : List PeerInfo := m.inner.identity.peers

def updatePeers (f : List PeerInfo → List PeerInfo) : ConfigManager (Identity β) π ρ :=
  m.update toml fun cfg => { cfg with identity := { cfg.identity with peers := f cfg.identity.peers } }

def removePeerByVip (vip : String) : ConfigManager (Identity β) π ρ :=
  m.updatePeers toml (·.filter (·.virtualIp ≠ vip))

def upsertMemberRosterPeer (peer : PeerInfo) : ConfigManager (Identity β) π ρ :=
  if peer.nodeId ≠ "" then
    match m.peers.find? (·.nodeId = peer.nodeId) with
    | some existing =>
      if existing = peer then m else m.updatePeers toml (replaceFirst (·.nodeId = peer.nodeId) peer)
    | none =>
      m.updatePeers toml fun peers =>
        makeRoom (peers.filter fun p => p.nodeId ≠ peer.nodeId ∧ p.virtualIp ≠ peer.virtualIp) ++ [peer]
  else
    match m.peers.find? (·.virtualIp = peer.virtualIp) with
    | some existing =>
      if existing = peer then m else m.updatePeers toml (replaceFirst (·.virtualIp = peer.virtualIp) peer)
    | none => m.updatePeers toml fun peers => makeRoom peers ++ [peer]

def removeMemberRosterVip (vip : String) : ConfigManager (Identity β) π ρ :=
  if m.peers.any (·.virtualIp = vip) then m.removePeerByVip toml vip else m

def matchesEndpoint (endpoint nodeId : String) (p : PeerInfo) : Bool :=
  p.realIp = endpoint ∨ nodeId ≠ "" ∧ p.nodeId = nodeId

def removePeersByEndpoint (endpoint nodeId : String) : ConfigManager (Identity β) π ρ × List PeerInfo :=
  (m.updatePeers toml fun peers => (peers.partition (matchesEndpoint endpoint nodeId)).2,
    (m.peers.partition (matchesEndpoint endpoint nodeId)).1)

end

end ConfigManager

inductive RosterCall where
  | upsert (peer : PeerInfo)
  | removeVip (vip : String)
  | removeByEndpoint (endpoint nodeId : String)
  deriving DecidableEq

def rosterStep {β π ρ : Type} (toml : Toml (Identity β) π ρ) (m : ConfigManager (Identity β) π ρ) :
    RosterCall → ConfigManager (Identity β) π ρ × List PeerInfo
  | .upsert peer => (m.upsertMemberRosterPeer toml peer, [])
  | .removeVip vip => (m.removeMemberRosterVip toml vip, [])
  | .removeByEndpoint endpoint nodeId => m.removePeersByEndpoint toml endpoint nodeId

/-! ## Rows -/

structure Apart (p q : PeerInfo) : Prop where
  vip : p.virtualIp ≠ q.virtualIp
  node : p.nodeId ≠ "" → p.nodeId ≠ q.nodeId

instance (p q : PeerInfo) : Decidable (Apart p q) :=
  decidable_of_iff (p.virtualIp ≠ q.virtualIp ∧ (p.nodeId ≠ "" → p.nodeId ≠ q.nodeId))
    ⟨fun h => ⟨h.1, h.2⟩, fun h => ⟨h.vip, h.node⟩⟩

theorem Apart.symm {p q : PeerInfo} (h : Apart p q) : Apart q p := ⟨h.vip.symm, fun hq he => h.node (he ▸ hq) he.symm⟩

instance : Std.Symm Apart := ⟨fun _ _ => Apart.symm⟩

structure RosterOk (peers : List PeerInfo) : Prop where
  apart : peers.Pairwise Apart
  size : peers.length ≤ memberRosterMax

instance (peers : List PeerInfo) : Decidable (RosterOk peers) :=
  decidable_of_iff (peers.Pairwise Apart ∧ peers.length ≤ memberRosterMax)
    ⟨fun h => ⟨h.1, h.2⟩, fun h => ⟨h.apart, h.size⟩⟩

theorem RosterOk.sublist {peers peers' : List PeerInfo} (h : RosterOk peers) (hs : peers'.Sublist peers) :
    RosterOk peers' :=
  ⟨h.apart.sublist hs, Nat.le_trans hs.length_le h.size⟩

theorem rosterOk_middle {before after : List PeerInfo} {p : PeerInfo} : RosterOk (before ++ p :: after) ↔
    RosterOk (before ++ after) ∧ (∀ q ∈ before ++ after, Apart p q) ∧ (before ++ after).length < memberRosterMax := by
  have hlen : (before ++ p :: after).length = (before ++ after).length + 1 := by simp; omega
  constructor
  · intro h
    obtain ⟨hp, hrest⟩ := List.pairwise_cons.mp ((List.pairwise_middle Apart.symm).mp h.apart)
    have := h.size
    exact ⟨⟨hrest, by omega⟩, hp, by omega⟩
  intro h
  obtain ⟨hrest, hp, hsize⟩ := h
  exact ⟨(List.pairwise_middle Apart.symm).mpr (List.pairwise_cons.mpr ⟨hp, hrest.apart⟩), by omega⟩

theorem RosterOk.eq_of_vip {peers : List PeerInfo} (h : RosterOk peers) {p q : PeerInfo} (hp : p ∈ peers)
    (hq : q ∈ peers) (he : p.virtualIp = q.virtualIp) : p = q := by
  by_contra hne
  exact (h.apart.forall hp hq hne).vip he

theorem makeRoom_sublist {peers : List PeerInfo} : (makeRoom peers).Sublist peers := by
  induction peers with
  | nil => exact List.Sublist.refl _
  | cons p peers ih =>
    unfold makeRoom
    split
    · exact ih.cons p
    exact List.Sublist.refl _

theorem length_makeRoom {peers : List PeerInfo} : (makeRoom peers).length < memberRosterMax := by
  induction peers with
  | nil => decide
  | cons p peers ih =>
    unfold makeRoom
    split
    · exact ih
    rename_i h
    exact Nat.not_le.mp h

theorem replaceFirst_of_find {key : PeerInfo → Bool} {peers : List PeerInfo} {e : PeerInfo}
    (h : peers.find? key = some e) (peer : PeerInfo) : ∃ before after, peers = before ++ e :: after ∧ replaceFirst key
    peer peers = before ++ peer :: after ∧ key e = true := by
  induction peers with
  | nil => cases h
  | cons p peers ih =>
    by_cases hp : key p = true
    · rw [List.find?_cons_of_pos hp] at h
      cases h
      exact ⟨[], peers, rfl, by simp [replaceFirst, hp], hp⟩
    rw [List.find?_cons_of_neg hp] at h
    obtain ⟨before, after, rfl, hr, he⟩ := ih h
    exact ⟨p :: before, after, rfl, by simp [replaceFirst, hp, hr], he⟩

/-! ## Calls -/

inductive Upserted (peers : List PeerInfo) (peer : PeerInfo) : List PeerInfo → Prop
  | same : peer ∈ peers → Upserted peers peer peers
  | replaced {before after : List PeerInfo} {e : PeerInfo} : peers = before ++ e :: after →
    (if peer.nodeId ≠ "" then e.nodeId = peer.nodeId else e.virtualIp = peer.virtualIp) →
    Upserted peers peer (before ++ peer :: after)
  | added {kept : List PeerInfo} : kept.Sublist peers → kept.length < memberRosterMax →
    (∀ q ∈ kept, Apart peer q) → (peer.nodeId ≠ "" → ∀ q ∈ peers, q.nodeId ≠ peer.nodeId) →
    Upserted peers peer (kept ++ [peer])

def Reconciled (peers : List PeerInfo) (peer : PeerInfo) : Prop :=
  peer.nodeId ≠ "" → (∃ p ∈ peers, p.nodeId = peer.nodeId) →
    ∀ q ∈ peers, q.virtualIp = peer.virtualIp → q.nodeId = peer.nodeId

instance (peers : List PeerInfo) (peer : PeerInfo) : Decidable (Reconciled peers peer) :=
  inferInstanceAs (Decidable (peer.nodeId ≠ "" → (∃ p ∈ peers, p.nodeId = peer.nodeId) →
    ∀ q ∈ peers, q.virtualIp = peer.virtualIp → q.nodeId = peer.nodeId))

theorem Upserted.mem {peers peers' : List PeerInfo} {peer : PeerInfo} (h : Upserted peers peer peers') :
    peer ∈ peers' := by
  cases h with
  | same h => exact h
  | replaced => simp
  | added => simp

theorem Upserted.subset {peers peers' : List PeerInfo} {peer : PeerInfo} (h : Upserted peers peer peers')
    {q : PeerInfo} (hq : q ∈ peers') : q ∈ peers ∨ q = peer := by
  cases h with
  | same => exact .inl hq
  | replaced hpeers => subst hpeers; grind
  | added hsub =>
    rcases List.mem_append.mp hq with hq | hq
    · exact .inl (hsub.mem hq)
    exact .inr (List.mem_singleton.mp hq)

theorem Upserted.rosterOk_iff {peers peers' : List PeerInfo} {peer : PeerInfo} (h : Upserted peers peer peers')
    (hok : RosterOk peers) : RosterOk peers' ↔ Reconciled peers peer := by
  cases h with
  | same hmem =>
    refine iff_of_true hok ?_
    intro _ _ q hq he
    rw [hok.eq_of_vip hq hmem he]
  | added hsub hlen hapart hnew =>
    refine iff_of_true ?_ ?_
    · exact rosterOk_middle.mpr ⟨by simpa using hok.sublist hsub, by simpa using hapart, by simpa using hlen⟩
    intro hn hknown
    obtain ⟨p, hp, he⟩ := hknown
    exact absurd he (hnew hn p hp)
  | @replaced before after e hpeers hkey =>
    subst hpeers
    obtain ⟨hrest, hapart, hlen⟩ := rosterOk_middle.mp hok
    rw [rosterOk_middle]
    by_cases hn : peer.nodeId ≠ ""
    · rw [if_pos hn] at hkey
      constructor
      · intro h _ _ q hq he
        by_contra hne
        have hq' : q ∈ before ++ after := by
          rcases List.mem_append.mp hq with hq | hq
          · exact List.mem_append_left _ hq
          rcases List.mem_cons.mp hq with rfl | hq
          · exact absurd hkey hne
          exact List.mem_append_right _ hq
        exact (h.2.1 q hq').vip he.symm
      intro h
      refine ⟨hrest, ?_, hlen⟩
      intro q hq
      have hq' : q ∈ before ++ e :: after := by
        rcases List.mem_append.mp hq with hq | hq
        · exact List.mem_append_left _ hq
        exact List.mem_append_right _ (List.mem_cons_of_mem _ hq)
      have hnode : peer.nodeId ≠ q.nodeId := fun he => (hapart q hq).node (hkey ▸ hn) (hkey.trans he)
      refine ⟨?_, fun _ => hnode⟩
      intro he
      exact hnode (h hn ⟨e, by simp, hkey⟩ q hq' he.symm).symm
    · rw [if_neg hn] at hkey
      refine iff_of_true ⟨hrest, ?_, hlen⟩ fun hn' => absurd hn' hn
      intro q hq
      exact ⟨hkey ▸ (hapart q hq).vip, fun hn' => absurd hn' hn⟩

section
variable {β π ρ : Type} {toml : Toml (Identity β) π ρ} {m : ConfigManager (Identity β) π ρ}

theorem peers_updatePeers {f : List PeerInfo → List PeerInfo} : (m.updatePeers toml f).peers = f m.peers := by
  unfold ConfigManager.updatePeers ConfigManager.update ConfigManager.peers absorbExternalPerformance
  dsimp only
  cases m.file with
  | none => rfl
  | some raw =>
    dsimp only
    split
    · rfl
    cases toml.parse raw <;> rfl

theorem upserted_upsert {peer : PeerInfo} : Upserted m.peers peer (m.upsertMemberRosterPeer toml peer).peers := by
  unfold ConfigManager.upsertMemberRosterPeer
  by_cases hn : peer.nodeId ≠ ""
  · rw [if_pos hn]
    split
    · rename_i e he
      split
      · rename_i hsame
        exact .same (hsame ▸ List.mem_of_find?_eq_some he)
      obtain ⟨before, after, hpeers, hreplaced, hkey⟩ := replaceFirst_of_find he peer
      rw [peers_updatePeers, hreplaced]
      refine .replaced hpeers ?_
      rw [if_pos hn]
      exact of_decide_eq_true hkey
    rename_i hnone
    rw [peers_updatePeers]
    have hnew : ∀ q ∈ m.peers, q.nodeId ≠ peer.nodeId := by simpa using hnone
    refine .added ((makeRoom_sublist).trans List.filter_sublist) length_makeRoom ?_ fun _ => hnew
    intro q hq
    have hkept := (List.mem_filter.mp ((makeRoom_sublist).mem hq)).2
    rw [decide_eq_true_eq] at hkept
    exact ⟨hkept.2.symm, fun _ => hkept.1.symm⟩
  · rw [if_neg hn]
    split
    · rename_i e he
      split
      · rename_i hsame
        exact .same (hsame ▸ List.mem_of_find?_eq_some he)
      obtain ⟨before, after, hpeers, hreplaced, hkey⟩ := replaceFirst_of_find he peer
      rw [peers_updatePeers, hreplaced]
      refine .replaced hpeers ?_
      rw [if_neg hn]
      exact of_decide_eq_true hkey
    rename_i hnone
    rw [peers_updatePeers]
    have hnew : ∀ q ∈ m.peers, q.virtualIp ≠ peer.virtualIp := by simpa using hnone
    refine .added makeRoom_sublist length_makeRoom ?_ fun hn' => absurd hn' hn
    intro q hq
    exact ⟨(hnew q ((makeRoom_sublist).mem hq)).symm, fun hn' => absurd hn' hn⟩

theorem removeVip_sublist {vip : String} : (m.removeMemberRosterVip toml vip).peers.Sublist m.peers := by
  unfold ConfigManager.removeMemberRosterVip ConfigManager.removePeerByVip
  split
  · rw [peers_updatePeers]
    exact List.filter_sublist
  exact List.Sublist.refl _

theorem removeByEndpoint_sublist {endpoint nodeId : String} :
    (m.removePeersByEndpoint toml endpoint nodeId).1.peers.Sublist m.peers := by
  unfold ConfigManager.removePeersByEndpoint
  rw [peers_updatePeers, List.partition_eq_filter_filter]
  exact List.filter_sublist

/-! ## Runs -/

/-- The condition on one call in the roster it is made in. -/
def CallOk (m : ConfigManager (Identity β) π ρ) : RosterCall → Prop
  | .upsert peer => Reconciled m.peers peer
  | _ => True

instance (m : ConfigManager (Identity β) π ρ) : ∀ call, Decidable (CallOk m call)
  | .upsert peer => inferInstanceAs (Decidable (Reconciled m.peers peer))
  | .removeVip _ => .isTrue trivial
  | .removeByEndpoint _ _ => .isTrue trivial

theorem rosterOk_step_iff {call : RosterCall} (h : RosterOk m.peers) :
    RosterOk (rosterStep toml m call).1.peers ↔ CallOk m call := by
  cases call with
  | upsert peer => exact (upserted_upsert).rosterOk_iff h
  | removeVip vip => exact iff_of_true (h.sublist removeVip_sublist) trivial
  | removeByEndpoint endpoint nodeId =>
    exact iff_of_true (h.sublist removeByEndpoint_sublist) trivial

variable (toml) in
/-- The rows before the `i`-th call. -/
def peersAt (m : ConfigManager (Identity β) π ρ) (calls : List RosterCall) (i : Nat) : List PeerInfo :=
  (Machine.stateAt (rosterStep toml) m calls i).peers

theorem named_step {call : RosterCall} (hcall : ∀ peer, call = .upsert peer → peer.nodeId ≠ "")
    (h : ∀ p ∈ m.peers, p.nodeId ≠ "") : ∀ p ∈ (rosterStep toml m call).1.peers, p.nodeId ≠ "" := by
  intro p hp
  cases call with
  | upsert peer =>
    rcases (upserted_upsert).subset hp with hp | rfl
    · exact h p hp
    exact hcall p rfl
  | removeVip vip => exact h p ((removeVip_sublist).mem hp)
  | removeByEndpoint endpoint nodeId => exact h p ((removeByEndpoint_sublist).mem hp)

/-- A run keeps the roster exactly if each upsert of a known node is reconciled with the other rows; the
upserted row is there in any case, and no row loses its node id. -/
theorem roster_kept_iff (calls : List RosterCall) (h : RosterOk m.peers) : ((∀ i, RosterOk (peersAt toml m calls i) ∧
        ∀ peer, calls[i]? = some (.upsert peer) → peer ∈ peersAt toml m calls (i + 1)) ↔
      Machine.Each (rosterStep toml) m calls CallOk) ∧
    ((∀ p ∈ m.peers, p.nodeId ≠ "") → (∀ peer, .upsert peer ∈ calls → peer.nodeId ≠ "") →
      ∀ i, ∀ p ∈ peersAt toml m calls i, p.nodeId ≠ "") := by
  constructor
  · have hok : (∀ i, RosterOk (peersAt toml m calls i)) ↔ Machine.Each (rosterStep toml) m calls CallOk :=
      Machine.always_iff_each (C := fun m : ConfigManager (Identity β) π ρ => RosterOk m.peers) (I := fun _ => True) h
        (fun _ => trivial) fun _ a _ hm => rosterOk_step_iff hm
    rw [← hok]
    refine ⟨fun h i => (h i).1, fun h i => ⟨h i, ?_⟩⟩
    intro peer hcall
    unfold peersAt
    rw [Machine.stateAt_succ _ _ _ hcall]
    exact (upserted_upsert).mem
  intro hnamed hcalls
  refine Machine.invariant (P := fun m : ConfigManager (Identity β) π ρ => ∀ p ∈ m.peers, p.nodeId ≠ "") hnamed
    (fun _ a ha hm => named_step ha hm) ?_
  intro i call hcall peer he
  exact hcalls peer (he ▸ List.mem_of_getElem? hcall)

end

/-! ## What every run keeps -/

def namedNodes (peers : List PeerInfo) : List String := (peers.map (·.nodeId)).filter (· ≠ "")

structure Keyed (peers : List PeerInfo) : Prop where
  nodes : (namedNodes peers).Nodup
  size : peers.length ≤ memberRosterMax

section
variable {peers peers' : List PeerInfo} {peer : PeerInfo} (hk : Keyed peers)
include hk

theorem Keyed.sublist (hs : peers'.Sublist peers) : Keyed peers' :=
  ⟨hk.nodes.sublist ((hs.map PeerInfo.nodeId).filter _), Nat.le_trans hs.length_le hk.size⟩

theorem Keyed.upserted (h : Upserted peers peer peers') : Keyed peers' := by
  cases h with
  | same => exact hk
  | @replaced before after e hpeers hkey =>
    subst hpeers
    refine ⟨?_, by simpa using hk.size⟩
    have hnd := hk.nodes
    unfold namedNodes at hnd ⊢
    rw [List.map_append, List.filter_append, List.map_cons] at hnd ⊢
    by_cases hn : peer.nodeId ≠ ""
    · rw [if_pos hn] at hkey
      rwa [← hkey]
    rw [List.filter_cons_of_neg (by simpa using hn)]
    exact hnd.sublist (((List.sublist_cons_self ..).filter _).append_left _)
  | @added kept hsub hroom _ hnew =>
    have hkept := (hk.sublist hsub).nodes
    refine ⟨?_, by simpa using Nat.succ_le_of_lt hroom⟩
    by_cases hn : peer.nodeId ≠ ""
    · have hnot : peer.nodeId ∉ namedNodes kept := by
        intro hmem
        obtain ⟨q, hq, he⟩ := List.mem_map.mp (List.mem_filter.mp hmem).1
        exact hnew hn q (hsub.mem hq) he
      have happ : namedNodes (kept ++ [peer]) = namedNodes kept ++ [peer.nodeId] := by simp [namedNodes, hn]
      rw [happ, (List.perm_append_singleton _ _).nodup_iff]
      exact List.nodup_cons.mpr ⟨hnot, hkept⟩
    · simpa [namedNodes, hn] using hkept

end

/-- No node ever has two rows, and there are never more rows than fit. -/
theorem roster_keyed {β π ρ : Type} (toml : Toml (Identity β) π ρ) (rest : β) (performance : π) (file : Option ρ)
    (calls : List RosterCall) (i : Nat) : Keyed (peersAt toml (.new ⟨⟨[], rest⟩, performance⟩ file) calls i) := by
  refine Machine.invariant_all (P := fun m : ConfigManager (Identity β) π ρ => Keyed m.peers)
    (by exact ⟨List.nodup_nil, Nat.zero_le _⟩) (fun m call hk => ?_) i
  cases call with
  | upsert peer => exact hk.upserted upserted_upsert
  | removeVip vip => exact hk.sublist removeVip_sublist
  | removeByEndpoint endpoint nodeId => exact hk.sublist removeByEndpoint_sublist

/-! ## A known node on another row's virtual IP -/

def row (nodeId virtualIp : String) : PeerInfo := ⟨nodeId, nodeId, virtualIp, "198.51.100.1:5000", 0⟩

/-- No file is read and nothing else is configured. -/
def noFile : Toml (Identity Unit) Unit Unit := ⟨fun _ => (), fun _ => none, fun _ => 0⟩

def managerOf (peers : List PeerInfo) : ConfigManager (Identity Unit) Unit Unit :=
  .new ⟨⟨peers, ()⟩, ()⟩ none

def twoRows : ConfigManager (Identity Unit) Unit Unit := managerOf [row "n1" "10.0.0.2", row "n2" "10.0.0.3"]

/-- The row of `n1` moves to a free virtual IP. -/
theorem roster_kept_reroll : RosterOk twoRows.peers ∧
    ∀ i, RosterOk (peersAt noFile twoRows [.upsert (row "n1" "10.0.0.9")] i) :=
  ⟨by decide, fun i => (((roster_kept_iff _ (by decide)).1.mpr (by decide)) i).1⟩

/-- The row of `n1` moves to the virtual IP of `n2`, which then has two rows. -/
theorem known_node_doubles_vip : RosterOk twoRows.peers ∧
    peersAt noFile twoRows [.upsert (row "n1" "10.0.0.3")] 1 = [row "n1" "10.0.0.3", row "n2" "10.0.0.3"] := by
  decide

end ConnectUnit.ConfigStore
