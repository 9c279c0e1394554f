import ConnectUnit.MembershipSound

/-!
# Gossip between members

Members that send each other digests.
-/

open Machine (Each run stateAt)

namespace ConnectUnit

open Member (mute quietEnv)

variable {n : String} {t : Instant}

structure Flight where
  sentAt : Instant
  body : Body GossipJson

structure GossipNet (ι : Type) where
  clock : Instant
  members : ι → Member
  flights : List Flight
  delay : Nat

def Member.Event.isGossip : Member.Event → Bool
  | .claimGossip .. => true
  | _ => false

namespace GossipNet

/-- A member takes an event of its own, or a digest arrives. -/
inductive Action (ι : Type) where
  | act (i : ι) (env : Env) (ev : { ev : Member.Event // ev.isGossip = false })
  | deliver (flight : Nat) (i : ι) (fromEp : SocketAddr) (env : Env)

def digest : MemberOutput → Option (Body GossipJson)
  | .claimGossip _ body => some body
  | .leave .. => none

section
variable {ι : Type} [DecidableEq ι] (P : Primitives) (W : WireText)

def start (members : ι → Member) (clock : Instant) : GossipNet ι := ⟨clock, members, [], 0⟩

variable (s : GossipNet ι) (a : Nat × Action ι)

def event : Option (ι × Env × Member.Event) :=
  match a.2 with
  | .act i env ev => some (i, { env with now := s.clock + a.1 }, ev.1)
  | .deliver k i fromEp env =>
    (s.flights[k]?).map fun f => (i, { env with now := s.clock + a.1 }, .claimGossip f.body fromEp true)

def lag : Nat :=
  match a.2 with
  | .act .. => 0
  | .deliver k .. => ((s.flights[k]?).map fun f => s.clock + a.1 - f.sentAt).getD 0

def sends : List (Body GossipJson) :=
  match s.event a with
  | some (i, ev) => ((s.members i).step P W ev).2.filterMap digest
  | none => []

def step : GossipNet ι × List Empty :=
  ({ clock := s.clock + a.1
     members := match s.event a with
       | some (i, ev) => Function.update s.members i ((s.members i).step P W ev).1
       | none => s.members
     flights := s.flights ++ (s.sends P W a).map (⟨s.clock + a.1, ·⟩)
     delay := s.delay + s.lag a }, [])

end

/-- What `merge_claim` of a member answers to a claim. -/
def answer {ι : Type} (s : GossipNet ι) (j : ι) (c : ClaimRecord) (now : Instant) : MergeOutcome :=
  (mergeClaim (s.members j).claimMap c (s.members j).leaveTombs (s.members j).fightSuppress now).2.2

/-! ## How long a tombstone lasts -/

def Carries (n : String) (body : Body GossipJson) : Prop :=
  ∃ l ∈ (body.json.bind (·.leaves)).getD [], l.nodeId = n

section
variable {ι : Type} [DecidableEq ι] {P : Primitives} {W : WireText}
variable {s : GossipNet ι} {a : Nat × Action ι}

/-- The action is a leave of the node, by message or broadcast, that is processed. -/
def IsLeave (P : Primitives) (n : String) (s : GossipNet ι) (a : Nat × Action ι) : Prop :=
  match a.2 with
  | .act i env ev => (s.members i).lastLeave P ({ env with now := s.clock + a.1 }, ev.1) n ≠ none
  | .deliver .. => False

/-- A digest that carries a leave of the node is sent no later than `t` plus the delays so far. -/
def SentBy (P : Primitives) (W : WireText) (n : String) (t : Instant) (s : GossipNet ι) (a : Nat × Action ι) : Prop :=
  ∀ body ∈ s.sends P W a, Carries n body → s.clock + a.1 ≤ t + (s.delay + s.lag a)

structure Bounded (n : String) (t : Instant) (s : GossipNet ι) : Prop where
  past : ∀ f ∈ s.flights, f.sentAt ≤ s.clock
  sent : ∀ f ∈ s.flights, Carries n f.body → f.sentAt ≤ t + s.delay
  tombs : ∀ i tomb, (s.members i).leaveTombs.lookup n = some tomb →
    tomb.expiresAt ≤ t + leaveTombstoneTtl + s.delay

theorem carries_of_lastLeave {m : Member} {env : Env} {body : Body GossipJson} {fromEp : SocketAddr}
    {l : LeaveItem} (h : m.lastLeave P (env, .claimGossip body fromEp true) n = some l) : Carries n body := by
  have hmem := List.mem_filter.mp (List.mem_of_getLast? h)
  rw [decide_eq_true_eq] at hmem
  refine ⟨l, ?_, hmem.2⟩
  have hp := hmem.1
  unfold Member.processedLeaves at hp
  dsimp only at hp
  split at hp
  · cases hp
  exact (List.mem_filter.mp hp).1

theorem step_tomb {i : ι} {tomb : LeaveTombstone} (h : ((s.step P W a).1.members i).leaveTombs.lookup n = some tomb) :
    (s.members i).leaveTombs.lookup n = some tomb ∨ ∃ ev, s.event a = some (i, ev) ∧ (s.members i).lastLeave P ev n ≠
    none ∧ tomb.expiresAt = ev.1.now + leaveTombstoneTtl := by
  cases hev : s.event a with
  | none =>
    simp only [step, hev] at h
    exact .inl h
  | some p =>
    obtain ⟨j, ev⟩ := p
    simp only [step, hev] at h
    by_cases hij : i = j
    · subst hij
      rw [Function.update_self] at h
      cases hl : (s.members i).lastLeave P ev n with
      | none =>
        rw [Member.step_tombstone_of_no_leave _ hl, Option.filter_eq_some_iff] at h
        exact .inl h.1
      | some l =>
        rw [Member.step_tombstone_of_leave _ hl] at h
        cases h
        exact .inr ⟨ev, rfl, by rw [hl]; simp, rfl⟩
    rw [Function.update_of_ne hij] at h
    exact .inl h

theorem arrival_bound {clock sentAt t delay : Nat} (hs : sentAt ≤ t + delay) {wait ttl : Nat} :
    clock + wait + ttl ≤ t + ttl + (delay + (clock + wait - sentAt)) := by
  omega

theorem Bounded.step (h : s.Bounded n t)
    (hleave : s.IsLeave P n a → s.clock + a.1 ≤ t) (hsent : s.SentBy P W n t a) : (s.step P W a).1.Bounded n t := by
  refine ⟨fun f hf => ?_, fun f hf hc => ?_, fun i tomb htomb => ?_⟩
  · rcases List.mem_append.mp hf with hf | hf
    · exact (h.past f hf).trans (Nat.le_add_right _ _)
    · obtain ⟨body, _, rfl⟩ := List.mem_map.mp hf
      exact le_rfl
  · rcases List.mem_append.mp hf with hf | hf
    · exact (h.sent f hf hc).trans (Nat.add_le_add_left (Nat.le_add_right _ _) _)
    · obtain ⟨body, hbody, rfl⟩ := List.mem_map.mp hf
      exact hsent body hbody hc
  rcases step_tomb htomb with hold | ⟨ev, hev, hl, hexp⟩
  · exact (h.tombs i tomb hold).trans (Nat.add_le_add_left (Nat.le_add_right _ _) _)
  rw [hexp]
  obtain ⟨wait, act⟩ := a
  cases act with
  | act j env e =>
    cases hev
    have ht : s.clock + wait ≤ t := hleave hl
    exact (Nat.add_le_add_right ht _).trans (Nat.le_add_right _ _)
  | deliver k j fromEp env =>
    obtain ⟨f, hf, heq⟩ := Option.map_eq_some_iff.mp hev
    cases heq
    obtain ⟨l, hl⟩ := Option.ne_none_iff_exists'.mp hl
    have hmem := List.mem_of_getElem? hf
    have hs : f.sentAt ≤ t + s.delay := h.sent f hmem (carries_of_lastLeave hl)
    have hlag : s.lag (wait, .deliver k i fromEp env) = s.clock + wait - f.sentAt := by
      simp [lag, hf]
    exact (arrival_bound hs).trans_eq (by rw [← hlag]; rfl)

/-- If the last leave of a node was at `t` and digests pass it on without keeping it, then 300 seconds
and the delay of the digests later no member blocks a claim of the node. -/
theorem leave_expires {members : ι → Member} (hfresh : ∀ i, (members i).leaveTombs = ∅) {clock : Instant}
    {as : List (Nat × Action ι)}
    (hlast : Each (step P W) (start members clock) as fun s a => s.IsLeave P n a → s.clock + a.1 ≤ t)
    (hsent : Each (step P W) (start members clock) as (SentBy P W n t)) (i : Nat) (j : ι) {now : Instant}
    (hnow : t + leaveTombstoneTtl + (stateAt (step P W) (start members clock) as i).delay ≤ now)
    {c : ClaimRecord} (hc : c.nodeId = n) :
    (stateAt (step P W) (start members clock) as i).answer j c now ≠ .blockedByTombstone := by
  have hok : Each (step P W) (start members clock) as
      fun s a => (s.IsLeave P n a → s.clock + a.1 ≤ t) ∧ s.SentBy P W n t a :=
    fun k a ha => ⟨hlast k a ha, hsent k a ha⟩
  have h0 : (start members clock).Bounded n t := by
    refine ⟨fun f hf => (by cases hf), fun f hf => (by cases hf), fun k tomb htomb => ?_⟩
    rw [show ((start members clock).members k).leaveTombs = ∅ from hfresh k] at htomb
    cases htomb
  have hinv := Machine.invariant h0 (fun s a hok hs => hs.step hok.1 hok.2) hok
  intro hblocked
  have hb := Member.blocks_of_merge hblocked
  obtain ⟨tomb, htomb, hexp, _⟩ := leaveTombstoneBlocks_eq_true_iff.mp hb
  rw [hc] at htomb
  have := (hinv i).tombs j tomb htomb
  exact absurd hexp (Nat.not_lt.mpr (this.trans hnow))

end

def memberWithPeer (vip : UInt32) (nodeId peerVip : String) (peer : SocketAddr) : Member :=
  let rt := ((RoutingTable.new 0).update peerVip peer none 0).onEntry peerVip fun e => { e with state := .active }
  Member.new (Engine.new rt vip nodeId 24 0) 4096 0

def twoMembers : Bool → Member
  | false => memberWithPeer 0x0A000001 "a" "10.0.0.2" (.v4 0xC0A80102 7777)
  | true => memberWithPeer 0x0A000002 "b" "10.0.0.1" (.v4 0xC0A80101 7777)

/-- Node `c` leaves at `a`; some time later `a` sends a digest, which arrives at `b`. -/
def passOn (wait delay : Nat) : List (Nat × Action Bool) :=
  [(0, .act false quietEnv ⟨.broadcastLeave ⟨⟨"c", "10.0.0.3", 5⟩, "x"⟩, rfl⟩),
   (wait, .act false quietEnv ⟨.syncTick, rfl⟩),
   (delay, .deliver 0 true (.v4 0xC0A80101 7777) quietEnv)]

theorem passOn_last {wait delay : Nat} : Each (step .transparent mute) (start twoMembers 0) (passOn wait delay)
      fun s a => s.IsLeave .transparent "c" a → s.clock + a.1 ≤ 0 := by
  intro i a ha
  match i, ha with
  | 0, ha => cases ha; exact fun _ => le_rfl
  | 1, ha => cases ha; exact fun h => absurd rfl h
  | 2, ha => cases ha; exact fun h => h.elim

theorem prompt_leave_expires : (run (step .transparent mute) (start twoMembers 0) (passOn 0 (secs 2))).answer true
      ⟨"c", "10.0.0.3", 5, []⟩ (secs 302) ≠ .blockedByTombstone := by
  have hsent : Each (step .transparent mute) (start twoMembers 0) (passOn 0 (secs 2))
      (SentBy .transparent mute "c" 0) := by
    intro i a ha
    match i, ha with
    | 0, ha => cases ha; exact fun _ _ _ => by decide
    | 1, ha => cases ha; exact fun _ _ _ => by decide
    | 2, ha => cases ha; exact fun _ _ _ => by decide
  have hfresh : ∀ i, (twoMembers i).leaveTombs = ∅ := fun i => by cases i <;> rfl
  exact leave_expires hfresh passOn_last hsent 3 true (by decide) rfl

/-- A digest that is sent after 299 seconds and arrives at once gives the tombstone another 300 seconds. -/
theorem gossip_renews_tombstone : Each (step .transparent mute) (start twoMembers 0) (passOn (secs 299) 0)
        (fun s a => s.IsLeave .transparent "c" a → s.clock + a.1 ≤ 0) ∧
      (run (step .transparent mute) (start twoMembers 0) (passOn (secs 299) 0)).delay = 0 ∧
      (run (step .transparent mute) (start twoMembers 0) (passOn (secs 299) 0)).answer true
        ⟨"c", "10.0.0.3", 5, []⟩ (secs 598) = .blockedByTombstone :=
  ⟨passOn_last, by decide, by decide⟩

end GossipNet

end ConnectUnit
