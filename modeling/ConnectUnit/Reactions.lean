import Mathlib.Data.Fintype.BigOperators
import ConnectUnit.GossipRank
import ConnectUnit.GossipNet

/-!
# Reactions to digests

Members that do nothing but answer each other's digests. A digest is a letter to one member and is delivered once, in
any order.
-/

open Machine (Each each_cons run stateAt)
open Function (update update_of_ne update_self)
open Finset (mem_univ univ)

namespace ConnectUnit

open Member (mute quietEnv)

structure Letter (ι : Type) where
  dest : ι
  fromEp : SocketAddr
  body : Body GossipJson
  deriving DecidableEq

structure Exchange (ι : Type) where
  members : ι → Member
  letters : List (Letter ι)

namespace Exchange

section
variable {ι : Type} [DecidableEq ι] (P : Primitives) (W : WireText) (addr : ι → SocketAddr)
  (owner : SocketAddr → Option ι)

def post (fromEp : SocketAddr) : MemberOutput → Option (Letter ι)
  | .claimGossip dest body => (owner dest).map (⟨·, fromEp, body⟩)
  | .leave .. => none

def step (s : Exchange ι) (a : Nat × Env) : Exchange ι × List Empty :=
  match s.letters[a.1]? with
  | none => (s, [])
  | some l =>
    let r := (s.members l.dest).handleClaimGossipBody P W l.body l.fromEp a.2
    ({ members := update s.members l.dest r.1
       letters := s.letters.eraseIdx a.1 ++ r.2.filterMap (post owner (addr l.dest)) }, [])

/-- A letter is delivered, no suppression expires, and the member keeps its address. -/
def OnlyReacts (start : Instant) (s : Exchange ι) (a : Nat × Env) : Prop :=
  ∃ l, s.letters[a.1]? = some l ∧ (s.members l.dest).NoExpiry start a.2 ∧
    ((s.step P W addr owner a).1.members l.dest).core.myVip = (s.members l.dest).core.myVip

/-- The digest brings neither other hints for a known claim nor another old claim of a suppressed node. -/
def NothingReturns (s : Exchange ι) (a : Nat × Env) : Prop :=
  ∀ l, s.letters[a.1]? = some l → (s.members l.dest).NoHintNews l.body.claims ∧
    (s.members l.dest).NoOldLosers l.body.claims a.2.now

end

section
variable {ι : Type} [DecidableEq ι] {P : Primitives} {W : WireText} {addr : ι → SocketAddr}
  {owner : SocketAddr → Option ι} {start : Instant} {top : Nat} {nodes : Finset String}

structure Closed (nodes : Finset String) (top : Nat) (s : Exchange ι) : Prop where
  members : ∀ i, (s.members i).Inside nodes top
  letters : ∀ l ∈ s.letters, ∀ c ∈ l.body.claims, c.nodeId ∈ nodes ∧ c.vipEpoch ≤ top

variable [Fintype ι]

def potential (start : Instant) (top : Nat) (nodes : Finset String) (s : Exchange ι) : Nat :=
  9 * ∑ i, (s.members i).weight start top nodes + s.letters.length

theorem sum_update {w : Member → Nat} (f : ι → Member) (i : ι) (m : Member) :
    ∑ j, w (update f i m j) + w (f i) = ∑ j, w (f j) + w m := by
  have h : ∀ g : ι → Member, ∑ j, w (g j) = w (g i) + ∑ j ∈ univ.erase i, w (g j) := fun g =>
    (Finset.add_sum_erase univ (fun j => w (g j)) (mem_univ i)).symm
  have hrest : ∑ j ∈ univ.erase i, w (update f i m j) = ∑ j ∈ univ.erase i, w (f j) :=
    Finset.sum_congr rfl fun j hj => by rw [update_of_ne (Finset.ne_of_mem_erase hj)]
  rw [h f, h (update f i m), hrest, update_self]
  omega

theorem Closed.step {s : Exchange ι} {a : Nat × Env} (h : Closed nodes top s)
    (hreacts : OnlyReacts P W addr owner start s a) (hret : NothingReturns s a) : Closed nodes top
    (s.step P W addr owner a).1 ∧ (s.step P W addr owner a).1.potential start top nodes < s.potential start top
    nodes := by
  obtain ⟨l, hl, hexp, hvip⟩ := hreacts
  obtain ⟨hhints, hlosers⟩ := hret l hl
  have hstep : s.step P W addr owner a =
      ({ members := update s.members l.dest
           ((s.members l.dest).handleClaimGossipBody P W l.body l.fromEp a.2).1
         letters := s.letters.eraseIdx a.1 ++
           ((s.members l.dest).handleClaimGossipBody P W l.body l.fromEp a.2).2.filterMap
             (post owner (addr l.dest)) }, []) := by
    unfold Exchange.step
    rw [hl]
  rw [hstep] at hvip ⊢
  dsimp only at hvip
  rw [update_self] at hvip
  have hr := Member.handleClaimGossipBody_reacted hexp hhints hlosers (h.letters l (List.mem_of_getElem? hl))
    (h.members l.dest) hvip
  generalize (s.members l.dest).handleClaimGossipBody P W l.body l.fromEp a.2 = r at hr ⊢
  refine ⟨⟨fun i => ?_, fun k hk => ?_⟩, ?_⟩
  · dsimp only
    by_cases hi : i = l.dest
    · rw [hi, update_self]
      exact hr.inside
    rw [update_of_ne hi]
    exact h.members i
  · rcases List.mem_append.mp hk with hk | hk
    · exact h.letters k (List.mem_of_mem_eraseIdx hk)
    · obtain ⟨o, ho, hpost⟩ := List.mem_filterMap.mp hk
      obtain ⟨dest, body, rfl, hclaims⟩ := hr.digest o ho
      obtain ⟨i, -, rfl⟩ := Option.map_eq_some_iff.mp hpost
      exact hclaims
  have hsum := sum_update (w := Member.weight start top nodes) s.members l.dest r.1
  have hlt : a.1 < s.letters.length := (List.getElem?_eq_some_iff.mp hl).1
  have hlen : (s.letters.eraseIdx a.1).length + 1 = s.letters.length := by
    rw [List.length_eraseIdx_of_lt hlt]
    omega
  have hposts : (r.2.filterMap (post owner (addr l.dest))).length ≤ r.2.length := List.length_filterMap_le _ _
  unfold potential
  dsimp only
  rw [List.length_append]
  rcases hr.weight with ⟨hnil, hle⟩ | hwlt
  · rw [hnil] at hposts ⊢
    have : ([] : List MemberOutput).length = 0 := rfl
    omega
  have := hr.copies
  omega

theorem length_le_potential {s : Exchange ι} {as : List (Nat × Env)} (h : Closed nodes top s)
    (hreacts : Each (step P W addr owner) s as (OnlyReacts P W addr owner start))
    (hret : Each (step P W addr owner) s as NothingReturns) : as.length ≤ s.potential start top nodes := by
  induction as generalizing s with
  | nil => exact Nat.zero_le _
  | cons a as ih =>
    obtain ⟨ha, has⟩ := each_cons.mp hreacts
    obtain ⟨hb, hbs⟩ := each_cons.mp hret
    obtain ⟨hclosed, hlt⟩ := h.step ha hb
    exact Nat.lt_of_le_of_lt (ih hclosed has hbs) hlt

def knownTo (m : Member) : List (String × Nat) :=
  (m.core.myNodeId, m.core.vipEpoch) :: m.claimMap.entries.flatMap fun e => [(e.1, 0), (e.2.nodeId, e.2.vipEpoch)]

omit [DecidableEq ι] in
theorem exists_closed (s : Exchange ι) : ∃ nodes top, Closed nodes top s := by
  let known := univ.toList.flatMap (fun i => knownTo (s.members i)) ++
    s.letters.flatMap fun l => l.body.claims.map fun c => (c.nodeId, c.vipEpoch)
  have hmem : ∀ p ∈ known, p.1 ∈ (known.map (·.1)).toFinset ∧ p.2 ≤ (known.map (·.2)).sum := fun p hp =>
    ⟨List.mem_toFinset.mpr (List.mem_map_of_mem hp), List.le_sum_of_mem (List.mem_map_of_mem hp)⟩
  have hmember : ∀ i, ∀ p ∈ knownTo (s.members i), p ∈ known := fun i p hp =>
    List.mem_append_left _ (List.mem_flatMap.mpr ⟨i, Finset.mem_toList.mpr (mem_univ i), hp⟩)
  refine ⟨(known.map (·.1)).toFinset, (known.map (·.2)).sum, fun i => ⟨?_, fun n c hc => ?_⟩, fun l hl c hc => ?_⟩
  · exact hmem _ (hmember i _ List.mem_cons_self)
  · have hentry : ∀ p ∈ [(n, 0), (c.nodeId, c.vipEpoch)], p ∈ known := fun p hp => hmember i p
      (List.mem_cons_of_mem _ (List.mem_flatMap.mpr ⟨⟨n, c⟩, (HashMap.lookup_eq_some_iff _).mp hc, hp⟩))
    exact ⟨(hmem _ (hentry (n, 0) List.mem_cons_self)).1,
      hmem _ (hentry (c.nodeId, c.vipEpoch) (List.mem_cons_of_mem _ List.mem_cons_self))⟩
  exact hmem (c.nodeId, c.vipEpoch) (List.mem_append_right _ (List.mem_flatMap.mpr ⟨l, hl, List.mem_map_of_mem hc⟩))

/-- Reactions to digests die out: from any state there is a bound on the number of deliveries. -/
theorem reactions_die_out (s : Exchange ι) (start : Instant) : ∃ bound, ∀ as : List (Nat × Env),
    Each (step P W addr owner) s as (OnlyReacts P W addr owner start) →
    Each (step P W addr owner) s as NothingReturns → as.length ≤ bound := by
  obtain ⟨nodes, top, hclosed⟩ := exists_closed s
  exact ⟨s.potential start top nodes, fun as hreacts hret => length_le_potential hclosed hreacts hret⟩

end

def portOf : Bool → SocketAddr
  | false => .v4 0xC0A80101 7777
  | true => .v4 0xC0A80102 7777

def portOwner (ep : SocketAddr) : Option Bool :=
  if ep = portOf false then some false else if ep = portOf true then some true else none

abbrev portStep : Exchange Bool → Nat × Env → Exchange Bool × List Empty :=
  step .transparent mute portOf portOwner

/-- Members that know nothing of each other, and a digest of the first to the second. -/
def firstContact : Exchange Bool where
  members := GossipNet.twoMembers
  letters := (Member.broadcastClaimGossip mute (GossipNet.twoMembers false) quietEnv).2.filterMap
    (post portOwner (portOf false))

def reactsTo (s : Exchange Bool) (l : Letter Bool) : Bool :=
  (s.members l.dest).fightSuppress = ∅ &&
    ((portStep s (0, quietEnv)).1.members l.dest).core.myVip = (s.members l.dest).core.myVip

theorem onlyReacts_of_reactsTo {s : Exchange Bool} (h : (s.letters[0]?).any s.reactsTo = true) :
    OnlyReacts .transparent mute portOf portOwner 0 s (0, quietEnv) := by
  obtain ⟨l, hl, ht⟩ := (Option.any_eq_true _ _).mp h
  unfold reactsTo at ht
  rw [Bool.and_eq_true, decide_eq_true_eq, decide_eq_true_eq] at ht
  refine ⟨l, hl, ⟨le_rfl, fun n t hs => ?_⟩, ht.2⟩
  rw [ht.1] at hs
  cases hs

theorem nothingReturns_of_empty {s : Exchange Bool} {a : Nat × Env} (h : (s.letters[a.1]?).all (fun l =>
      (s.members l.dest).claimMap = ∅ && (s.members l.dest).fightSuppress = ∅) = true) : NothingReturns s a := by
  intro l hl
  rw [hl, Option.all_some, Bool.and_eq_true, decide_eq_true_eq, decide_eq_true_eq] at h
  refine ⟨fun c _ _ d hd => ?_, fun c _ _ _ t ht => ?_⟩
  · rw [h.1] at hd
    cases hd
  rw [h.2] at ht
  cases ht

/-- In the bounded exchange of two new members, each of them answers a digest of the other. -/
theorem firstContact_dies_out : (∃ bound, ∀ as : List (Nat × Env),
      Each portStep firstContact as (OnlyReacts .transparent mute portOf portOwner 0) →
      Each portStep firstContact as NothingReturns → as.length ≤ bound) ∧
    Each portStep firstContact [(0, quietEnv), (0, quietEnv)] (OnlyReacts .transparent mute portOf portOwner 0) ∧
    Each portStep firstContact [(0, quietEnv), (0, quietEnv)] NothingReturns := by
  have hnil : ∀ (s : Exchange Bool) (ok : Exchange Bool → Nat × Env → Prop), Each portStep s [] ok :=
    fun s ok i a ha => (by cases ha)
  refine ⟨reactions_die_out firstContact 0, ?_, ?_⟩
  · refine each_cons.mpr ⟨onlyReacts_of_reactsTo (by decide +kernel), each_cons.mpr ⟨?_, hnil _ _⟩⟩
    exact onlyReacts_of_reactsTo (by decide +kernel)
  refine each_cons.mpr ⟨nothingReturns_of_empty (by decide +kernel), each_cons.mpr ⟨?_, hnil _ _⟩⟩
  exact nothingReturns_of_empty (by decide +kernel)

/-! ## Two members with different hints -/

deriving instance DecidableEq for PathCandidate, PathSet, RouteEntry
deriving instance DecidableEq for FailoverTuning, CongestionTuning, RoutingEwmaTuning, RoutingTable
deriving instance DecidableEq for CryptoPool, DataCrypto, CtrlReplayTable, Bucket, ControlRateLimiter, ControlCrypto
deriving instance DecidableEq for PunchState, Engine, Member

def hinted (i : Bool) : Member :=
  { GossipNet.twoMembers i with
    claimMap := (∅ : ClaimMap).insert "c" ⟨"c", "10.0.0.3", 1, [if i then "y" else "x"]⟩
    claimGossipDigestCursor := 2 ^ 64 - 1
    claimGossipFanoutCursor := 2 ^ 64 - 1 }

/-- Both digests are under way. -/
def hintExchange : Exchange Bool where
  members := hinted
  letters := [true, false].flatMap fun i =>
    (Member.broadcastClaimGossip mute (hinted i) quietEnv).2.filterMap (post portOwner (portOf i))

def hintsAfter (n : Nat) : Exchange Bool := run portStep hintExchange (List.replicate n (0, quietEnv))

theorem hintsAfter_succ {n : Nat} : hintsAfter (n + 1) = (portStep (hintsAfter n) (0, quietEnv)).1 := by
  unfold hintsAfter run
  rw [List.replicate_succ', List.foldl_append]
  rfl

theorem hintsAfter_six : hintsAfter 6 = hintsAfter 2 := by
  have hmembers : ∀ i, (hintsAfter 6).members i = (hintsAfter 2).members i := by decide +kernel
  have hletters : (hintsAfter 6).letters = (hintsAfter 2).letters := by decide +kernel
  generalize hintsAfter 6 = s at *
  generalize hintsAfter 2 = t at *
  obtain ⟨members, letters⟩ := s
  obtain ⟨members', letters'⟩ := t
  cases funext hmembers
  cases hletters
  rfl

theorem hintsAfter_cycle (n : Nat) : ∃ k < 6, hintsAfter n = hintsAfter k := by
  induction n with
  | zero => exact ⟨0, by omega, rfl⟩
  | succ n ih =>
    obtain ⟨k, hk, he⟩ := ih
    have hnext : hintsAfter (n + 1) = hintsAfter (k + 1) := by rw [hintsAfter_succ, he, hintsAfter_succ]
    by_cases hk' : k + 1 < 6
    · exact ⟨k + 1, hk', hnext⟩
    have h6 : k + 1 = 6 := by omega
    exact ⟨2, by omega, by rw [hnext, h6, hintsAfter_six]⟩

theorem hintsAfter_reacts {n : Nat} :
    OnlyReacts .transparent mute portOf portOwner 0 (hintsAfter n) (0, quietEnv) := by
  obtain ⟨k, hk, he⟩ := hintsAfter_cycle n
  rw [he]
  have htest : ∀ k < 6, ((hintsAfter k).letters[0]?).any (hintsAfter k).reactsTo = true := by decide +kernel
  exact onlyReacts_of_reactsTo (htest k hk)

/-- Two members that know different hints for a third one exchange them for ever: every time the oldest
letter is delivered, its receiver answers with a new one. -/
theorem hints_exchanged_for_ever : hintExchange.letters.length = 2 ∧ ∀ n, Each portStep hintExchange
    (List.replicate n (0, quietEnv)) (OnlyReacts .transparent mute portOf portOwner 0) := by
  refine ⟨by decide +kernel, ?_⟩
  intro n i a ha
  obtain ⟨hi, rfl⟩ := List.getElem?_eq_some_iff.mp ha
  have hstate : stateAt portStep hintExchange (List.replicate n (0, quietEnv)) i = hintsAfter i := by
    unfold stateAt hintsAfter
    rw [List.take_replicate, Nat.min_eq_left (by simpa using hi.le)]
  rw [hstate, List.getElem_replicate]
  exact hintsAfter_reacts

end Exchange

end ConnectUnit
