import ConnectUnit.VipFights

/-!
# Unique addresses

Members that tell each other their claims by hellos, answers and digests. What was sent may arrive late, more than
once or never, at anyone but its sender.
-/

open Machine (Each run stateAt stateAt_succ)
open Function (Injective update update_of_ne update_self)

namespace ConnectUnit

open Member (Event Turn mute)

inductive Message where
  | hello (body : Body JoinJson)
  | ack (body : Body JoinJson)
  | digest (body : Body GossipJson)

namespace Message

def event (fromEp : SocketAddr) (authenticated : Bool) : Message → Event
  | hello body => .join body fromEp authenticated
  | ack body => .joinAck body fromEp authenticated
  | digest body => .claimGossip body fromEp authenticated

def Honest (q : String → String → Nat → Prop) (sender : String) : Message → Prop
  | hello body => ∀ j, body.json = some j → j.nodeId = sender ∧ q j.nodeId j.vip j.vipEpoch
  | ack body => ∀ j, body.json = some j → j.nodeId = sender ∧ q j.nodeId j.vip j.vipEpoch
  | digest body => ∀ c ∈ body.claims, q c.nodeId c.vip c.vipEpoch

theorem Honest.imp {q q' : String → String → Nat → Prop} {sender : String} {msg : Message}
    (h : msg.Honest q sender) (hq : ∀ n vip e, q n vip e → q' n vip e) : msg.Honest q' sender := by
  cases msg with
  | hello body => exact fun j hj => (h j hj).imp_right (hq _ _ _)
  | ack body => exact fun j hj => (h j hj).imp_right (hq _ _ _)
  | digest body => exact fun c hc => hq _ _ _ (h c hc)

end Message

inductive Timer where
  | triggerClaimGossip
  | syncTick
  | presenceTick
  | staleEvict (staleMark staleAge : Nat)

def Timer.event : Timer → Event
  | triggerClaimGossip => .triggerClaimGossip
  | syncTick => .syncTick
  | presenceTick => .presenceTick
  | staleEvict staleMark staleAge => .staleEvict staleMark staleAge

structure ClaimNet (ι : Type) where
  members : ι → Member
  sent : List (ι × Message)

namespace ClaimNet

/-- A member sends its own claim, a message arrives, or a member acts on a timer. -/
inductive Action (ι : Type) where
  | announce (i : ι) (answer : Bool) (len : Nat) (protoVer pre : Option Nat)
  | deliver (message : Nat) (i : ι) (fromEp : SocketAddr) (authenticated : Bool) (env : Env)
  | act (i : ι) (env : Env) (timer : Timer)

section
variable {ι : Type} [DecidableEq ι] (P : Primitives) (W : WireText)

def turn (s : ClaimNet ι) : Action ι → Option (ι × Env × Event)
  | .announce .. => none
  | .deliver k i fromEp auth env =>
    (s.sent[k]?).bind fun p => if p.1 = i then none else some (i, env, p.2.event fromEp auth)
  | .act i env timer => some (i, env, timer.event)

def post (i : ι) : MemberOutput → Option (ι × Message)
  | .claimGossip _ body => some (i, .digest body)
  | .leave .. => none

def announcement (m : Member) (answer : Bool) (len : Nat) (protoVer pre : Option Nat) : Message :=
  let body : Body JoinJson := ⟨len, some ⟨protoVer, m.core.myNodeId, m.core.myVip, m.core.vipEpoch, pre⟩⟩
  if answer then .ack body else .hello body

def step (s : ClaimNet ι) (a : Action ι) : ClaimNet ι × List Empty :=
  match s.turn a with
  | some (i, ev) =>
    let r := (s.members i).step P W ev
    ({ members := update s.members i r.1, sent := s.sent ++ r.2.filterMap (post i) }, [])
  | none =>
    match a with
    | .announce i answer len protoVer pre =>
      ({ s with sent := s.sent ++ [(i, announcement (s.members i) answer len protoVer pre)] }, [])
    | _ => (s, [])

end

section
variable {ι : Type} (s : ClaimNet ι) (i : ι)

def idOf : String := (s.members i).core.myNodeId

def vipOf : String := (s.members i).core.myVip

def epochOf : Nat := (s.members i).core.vipEpoch

/-- A claim of a member that is not newer than its current one, for an address that a member no larger has. -/
def Genuine (n vip : String) (e : Nat) : Prop :=
  (∃ k, s.idOf k = n ∧ e ≤ s.epochOf k ∧ (e = s.epochOf k → vip = s.vipOf k)) ∧ ∃ k, s.idOf k ≤ n ∧ s.vipOf k = vip

structure Fair : Prop where
  ids : Injective s.idOf
  members : ∀ i, (s.members i).Sound s.Genuine
  sent : ∀ p ∈ s.sent, p.2.Honest s.Genuine (s.idOf p.1)

end

section
variable {ι : Type} [DecidableEq ι] {P : Primitives} {W : WireText} {s : ClaimNet ι} {a : Action ι}

omit [DecidableEq ι] in
theorem genuine_own (s : ClaimNet ι) (i : ι) : s.Genuine (s.idOf i) (s.vipOf i) (s.epochOf i) :=
  ⟨⟨i, rfl, le_rfl, fun _ => rfl⟩, i, le_rfl, rfl⟩

theorem Fair.honest (h : s.Fair) {i : ι} {ev : Env × Event} (ht : s.turn a = some (i, ev)) :
    Member.Honest s.Genuine (s.members i) ev.2 := by
  cases a with
  | announce i answer len protoVer pre => cases ht
  | act i env timer =>
    cases ht
    cases timer <;> trivial
  | deliver k i' fromEp auth env =>
    obtain ⟨p, hp, ht⟩ := Option.bind_eq_some_iff.mp ht
    split at ht
    · cases ht
    rename_i hne
    cases ht
    have hmsg := h.sent p (List.mem_of_getElem? hp)
    have hid : s.idOf p.1 ≠ s.idOf i := fun he => hne (h.ids he)
    cases hm : p.2 with
    | hello body =>
      rw [hm] at hmsg
      exact fun j hj => ⟨(hmsg j hj).1 ▸ hid, (hmsg j hj).2⟩
    | ack body =>
      rw [hm] at hmsg
      exact fun j hj => ⟨(hmsg j hj).1 ▸ hid, (hmsg j hj).2⟩
    | digest body =>
      rw [hm] at hmsg
      exact fun c hc _ => hmsg c hc

structure Grows (s s' : ClaimNet ι) : Prop where
  id : ∀ i, s'.idOf i = s.idOf i
  others : ∀ i, s'.vipOf i = s.vipOf i ∧ s'.epochOf i = s.epochOf i ∨
    (s'.epochOf i = s.epochOf i + 1 ∧ (∃ k, s.idOf k < s.idOf i ∧ s.vipOf k = s.vipOf i) ∧
      ∀ k, k ≠ i → s'.vipOf k = s.vipOf k)

omit [DecidableEq ι] in
theorem Grows.genuine {s s' : ClaimNet ι} (h : Grows s s') {n vip : String} {e : Nat} (hg : s.Genuine n vip e) :
    s'.Genuine n vip e := by
  obtain ⟨⟨k, hk, hle, hcur⟩, l, hl, hvip⟩ := hg
  constructor
  · refine ⟨k, (h.id k).trans hk, ?_⟩
    rcases h.others k with ⟨hv, he⟩ | ⟨he, -, -⟩
    · rw [he, hv]
      exact ⟨hle, hcur⟩
    rw [he]
    exact ⟨by omega, fun heq => by omega⟩
  rcases h.others l with ⟨hv, -⟩ | ⟨-, ⟨l', hlt, hv'⟩, hstay⟩
  · exact ⟨l, (h.id l).trans_le hl, hv.trans hvip⟩
  have hne : l' ≠ l := fun he => absurd hlt (he ▸ lt_irrefl _)
  refine ⟨l', (h.id l').trans_le (hlt.le.trans hl), ?_⟩
  rw [hstay l' hne, hv', hvip]

variable (P W) in
/-- A member that moves has an epoch left. -/
def Unsaturated (s : ClaimNet ι) (a : Action ι) : Prop :=
  ∀ i, (s.step P W a).1.vipOf i ≠ s.vipOf i → s.epochOf i < 2 ^ 64 - 1

omit [DecidableEq ι] in
theorem Fair.grows {s s' : ClaimNet ι} (h : s.Fair) (hg : Grows s s') (hm : ∀ i, (s'.members i).Sound s.Genuine)
    (hs : ∀ p ∈ s'.sent, p.2.Honest s'.Genuine (s'.idOf p.1)) : s'.Fair := by
  refine ⟨fun i j he => h.ids ?_, fun i => (hm i).imp fun n vip e => hg.genuine, hs⟩
  rw [← hg.id i, ← hg.id j]
  exact he

omit [DecidableEq ι] in
theorem grows_refl (s : ClaimNet ι) : Grows s s := ⟨fun _ => rfl, fun _ => .inl ⟨rfl, rfl⟩⟩

theorem announcement_honest {q : String → String → Nat → Prop} {m : Member}
    (h : q m.core.myNodeId m.core.myVip m.core.vipEpoch) (answer : Bool) (len : Nat) (protoVer pre : Option Nat) :
    (announcement m answer len protoVer pre).Honest q m.core.myNodeId := by
  unfold announcement
  dsimp only
  split
  · intro j hj
    cases hj
    exact ⟨rfl, h⟩
  intro j hj
  cases hj
  exact ⟨rfl, h⟩

theorem grows_of_turn {i : ι} {r : Member × List MemberOutput} (sent : List (ι × Message))
    (hturn : Turn s.Genuine (s.members i) r)
    (hu : r.1.core.myVip ≠ s.vipOf i → s.epochOf i < 2 ^ 64 - 1) :
    Grows s { members := update s.members i r.1, sent := sent } := by
  have hself : update s.members i r.1 i = r.1 := update_self ..
  have hother : ∀ j, j ≠ i → update s.members i r.1 j = s.members j := fun j hj =>
      update_of_ne hj ..
  refine ⟨fun j => ?_, fun j => ?_⟩
  · unfold idOf
    dsimp only
    by_cases hj : j = i
    · rw [hj, hself]
      exact hturn.moves.nodeId
    rw [hother j hj]
  by_cases hj : j = i
  · subst hj
    have hv : vipOf { members := update s.members j r.1, sent := sent } j = r.1.core.myVip :=
      congrArg (·.core.myVip) hself
    have he : epochOf { members := update s.members j r.1, sent := sent } j = r.1.core.vipEpoch :=
      congrArg (·.core.vipEpoch) hself
    rw [hv, he]
    rcases hturn.moves.moved with hstay | ⟨hne, ⟨n, e, hlt, -, k, hk, hkv⟩, hep⟩
    · exact .inl hstay
    have hmax := hu hne
    refine .inr ⟨?_, ⟨k, lt_of_le_of_lt hk hlt, hkv⟩, fun l hl => congrArg (·.core.myVip) (hother l hl)⟩
    rw [hep]
    unfold epochOf at hmax ⊢
    omega
  · exact .inl ⟨congrArg (·.core.myVip) (hother j hj), congrArg (·.core.vipEpoch) (hother j hj)⟩

theorem Fair.step (h : s.Fair) (hu : Unsaturated P W s a) : (s.step P W a).1.Fair ∧ Grows s (s.step P W a).1 := by
  unfold Unsaturated at hu
  unfold ClaimNet.step at hu ⊢
  cases ht : s.turn a with
  | none =>
    dsimp only
    cases a with
    | announce i answer len protoVer pre =>
      have hg : Grows s { s with sent := s.sent ++ [(i, announcement (s.members i) answer len protoVer pre)] } :=
        ⟨fun _ => rfl, fun _ => .inl ⟨rfl, rfl⟩⟩
      refine ⟨h.grows hg h.members fun p hp => ?_, hg⟩
      rcases List.mem_append.mp hp with hp | hp
      · exact h.sent p hp
      cases List.mem_singleton.mp hp
      exact announcement_honest (genuine_own s i) answer len protoVer pre
    | deliver => exact ⟨h, grows_refl s⟩
    | act => exact ⟨h, grows_refl s⟩
  | some p =>
    obtain ⟨i, ev⟩ := p
    rw [ht] at hu
    dsimp only at hu ⊢
    have hturn := (h.members i).step P W ev (h.honest ht)
    generalize (s.members i).step P W ev = r at hu hturn ⊢
    have hself : update s.members i r.1 i = r.1 := update_self ..
    have hg := grows_of_turn (s.sent ++ r.2.filterMap (post i)) hturn fun hne => hu i (by
      unfold vipOf at hne ⊢
      dsimp only
      rw [hself]
      exact hne)
    refine ⟨h.grows hg (fun j => ?_) fun p hp => ?_, hg⟩
    · dsimp only
      by_cases hj : j = i
      · rw [hj, hself]
        exact hturn.moves.sound
      rw [update_of_ne hj]
      exact h.members j
    rw [hg.id]
    rcases List.mem_append.mp hp with hp | hp
    · exact (h.sent p hp).imp fun n vip e => hg.genuine
    obtain ⟨o, ho, hpost⟩ := List.mem_filterMap.mp hp
    obtain ⟨dest, body, rfl, hclaims⟩ := hturn.speaks o ho
    cases hpost
    intro c hc
    rcases hclaims c hc with ⟨hn, hv, he⟩ | hq
    · have hown := genuine_own { members := update s.members i r.1, sent := s.sent ++ r.2.filterMap (post i) } i
      unfold idOf vipOf epochOf at hown
      dsimp only at hown
      rw [hself] at hown
      rw [hn, hv, he]
      exact hown
    · exact hg.genuine hq

/-! ## Runs -/

variable {as : List (Action ι)}

theorem fair_run (h0 : s.Fair) (hu : Each (step P W) s as (Unsaturated P W)) (p : Nat) :
    (stateAt (step P W) s as p).Fair :=
  Machine.invariant h0 (fun _ _ hu h => (h.step hu).1) hu p

theorem epochOf_mono (h0 : s.Fair) (hu : Each (step P W) s as (Unsaturated P W)) (i : ι) {p p' : Nat}
    (hp : p ≤ p') : (stateAt (step P W) s as p).idOf i = (stateAt (step P W) s as p').idOf i ∧
    (stateAt (step P W) s as p).epochOf i ≤ (stateAt (step P W) s as p').epochOf i := by
  induction p', hp using Nat.le_induction with
  | base => exact ⟨rfl, le_rfl⟩
  | succ p' _ ih =>
    cases ha : as[p']? with
    | none =>
      rw [Machine.stateAt_succ_of_none _ _ _ ha]
      exact ih
    | some a =>
      rw [stateAt_succ _ _ _ ha]
      have hg := ((fair_run h0 hu p').step (hu p' a ha)).2
      refine ⟨ih.1.trans (hg.id i).symm, ih.2.trans ?_⟩
      rcases hg.others i with ⟨-, he⟩ | ⟨he, -, -⟩
      · exact he.ge
      rw [he]
      exact Nat.le_succ _

variable (P W) in
/-- Member `i` has handled the last claim of `j` after its own last change of address, when it had an address
to go to. -/
def HasProcessed (s : ClaimNet ι) (as : List (Action ι)) (i j : ι) : Prop :=
  let last := run (step P W) s as
  ∃ p a ev r, as[p]? = some a ∧ (stateAt (step P W) s as p).turn a = some (i, ev) ∧
    ((stateAt (step P W) s as p).members i).learned P W ev = some r ∧
    (∃ c ∈ r.2, c.1.nodeId = last.idOf j ∧ c.1.vip = last.vipOf j ∧ c.1.vipEpoch = last.epochOf j) ∧
    (∀ p', p ≤ p' → p' ≤ as.length → (stateAt (step P W) s as p').vipOf i = last.vipOf i) ∧
    ¬ r.1.Exhausted P ev.1

theorem vipOf_ne_of_processed (h0 : s.Fair) (hu : Each (step P W) s as (Unsaturated P W)) {i j : ι}
    (hlt : (run (step P W) s as).idOf j < (run (step P W) s as).idOf i)
    (hp : HasProcessed P W s as i j) :
    (run (step P W) s as).vipOf i ≠ (run (step P W) s as).vipOf j := by
  intro hv
  obtain ⟨p, a, ev, r, ha, hturn, hlearned, ⟨c, hc, hcn, hcv, hce⟩, hkeep, hfree⟩ := hp
  have hlen : p < as.length := (List.getElem?_eq_some_iff.mp ha).1
  have hlast : stateAt (step P W) s as as.length = run (step P W) s as := by
    unfold stateAt
    rw [List.take_length]
  obtain ⟨hidj, hmono⟩ := epochOf_mono h0 hu j hlen.le
  obtain ⟨hidi, -⟩ := epochOf_mono h0 hu i hlen.le
  have hfair := fair_run h0 hu p
  have hstay := hkeep (p + 1) (Nat.le_succ p) hlen
  have hvip := hkeep p le_rfl hlen.le
  rw [hlast] at hidi hidj hmono
  rw [stateAt_succ _ _ _ ha] at hstay
  generalize run (step P W) s as = last at *
  generalize stateAt (step P W) s as p = now at *
  obtain ⟨htook, hstep⟩ := Member.learned_spec (hfair.members i) (hfair.honest hturn) hlearned
  -- both the claim and what the map then has of its node are the node's current claim
  have hcurrent : ∀ {n vip : String} {e : Nat}, now.Genuine n vip e → n = last.idOf j → last.epochOf j ≤ e →
      vip = now.vipOf j := by
    intro n vip e hg hn he
    obtain ⟨⟨k, hk, hle, hcur⟩, -⟩ := hg
    cases hfair.ids (hk.trans (hn.trans hidj.symm))
    exact hcur (le_antisymm hle (hmono.trans he))
  obtain ⟨hg, hne, hacc, d, hd, hded⟩ := htook.news c hc
  have hdg := (htook.sound.others _ d (htook.nodeId ▸ hne) hd).2
  have hdv : d.vip = r.1.core.myVip := by
    rw [hcurrent hdg hcn (hce ▸ hded), ← hcurrent hg hcn hce.ge, hcv, ← hv, ← hvip]
    exact htook.vip.symm
  refine hfree (htook.sound.exhausted_of_stays (P := P) ?_ hd hdv ?_ ?_)
  · rw [hcn, htook.nodeId]
    exact lt_of_lt_of_eq hlt hidi.symm
  · have hcvip : c.1.vip = r.1.core.myVip := by
      rw [hcv, ← hv, ← hvip]
      exact htook.vip.symm
    rw [← hcvip]
    unfold Member.acceptWireClaimVip Engine.acceptWireClaimVip Engine.unitNetworkKey at hacc ⊢
    rw [htook.keys]
    exact hacc
  have hturned : (now.step P W a).1.vipOf i = ((now.members i).step P W ev).1.core.myVip := by
    unfold vipOf ClaimNet.step
    rw [hturn]
    dsimp only
    rw [update_self]
  rw [← hstep, ← hturned, hstay, ← hvip]
  exact htook.vip.symm

/-- Addresses are unique once everybody has handled everybody's claim, and a member gives up its address only
while a smaller one has it. -/
theorem vips_unique (hids : Injective s.idOf) (hclaims : ∀ i, (s.members i).claimMap = ∅)
    (hsent : s.sent = []) (hu : Each (step P W) s as (Unsaturated P W)) :
    ((∀ i j, i ≠ j → HasProcessed P W s as i j) → Injective (run (step P W) s as).vipOf) ∧ ∀ p a i,
    as[p]? = some a → (stateAt (step P W) s as (p + 1)).vipOf i ≠ (stateAt (step P W) s as p).vipOf i
    → ∃ k, (stateAt (step P W) s as p).idOf k < (stateAt (step P W) s as p).idOf i ∧
    (stateAt (step P W) s as p).vipOf k = (stateAt (step P W) s as p).vipOf i := by
  have h0 : s.Fair := by
    refine ⟨hids, fun i => ⟨fun n c _ hc => ?_, fun c hc => ?_⟩, fun p hp => ?_⟩
    · rw [hclaims i] at hc
      cases hc
    · rw [hclaims i] at hc
      cases hc
    rw [hsent] at hp
    cases hp
  refine ⟨fun hall i j hv => ?_, fun p a i ha hne => ?_⟩
  · by_contra hij
    have hid : (run (step P W) s as).idOf i ≠ (run (step P W) s as).idOf j := fun he => by
      have hrun := fair_run h0 hu as.length
      unfold stateAt at hrun
      rw [List.take_length] at hrun
      exact hij (hrun.ids he)
    rcases lt_or_gt_of_ne hid with hlt | hlt
    · exact vipOf_ne_of_processed h0 hu hlt (hall j i (Ne.symm hij)) hv.symm
    exact vipOf_ne_of_processed h0 hu hlt (hall i j hij) hv
  rw [stateAt_succ _ _ _ ha] at hne
  have hg := ((fair_run h0 hu p).step (hu p a ha)).2
  rcases hg.others i with ⟨hv, -⟩ | ⟨-, hk, -⟩
  · exact absurd hv hne
  exact hk

end

section
variable {n : Nat}

def processedAt (s : ClaimNet (Fin n)) (as : List (Action (Fin n))) (i j : Fin n) (p : Nat) : Bool :=
  let last := run (step .transparent mute) s as
  let now := stateAt (step .transparent mute) s as p
  (as[p]?).any fun a => (now.turn a).any fun t => t.1 = i &&
    ((now.members i).learned .transparent mute t.2).any fun r =>
      (r.2.any fun c => c.1.nodeId = last.idOf j && c.1.vip = last.vipOf j && c.1.vipEpoch = last.epochOf j) &&
      ((List.range (as.length + 1)).all fun p' => p' < p ||
        (stateAt (step .transparent mute) s as p').vipOf i = last.vipOf i) &&
      (pickFreeVip (rerollBase .transparent (r.1.core.unitNetworkKey t.2.1.pick) r.1.core.myVip)
        (r.1.occupiedVipsForReroll r.1.core.myVip)).isSome

theorem hasProcessed_of_processedAt {s : ClaimNet (Fin n)} {as : List (Action (Fin n))} {i j : Fin n} {p : Nat}
    (h : s.processedAt as i j p = true) : HasProcessed .transparent mute s as i j := by
  obtain ⟨a, ha, h⟩ := (Option.any_eq_true _ _).mp h
  obtain ⟨⟨i', ev⟩, ht, h⟩ := (Option.any_eq_true _ _).mp h
  rw [Bool.and_eq_true, decide_eq_true_eq] at h
  obtain ⟨rfl, h⟩ := h
  obtain ⟨r, hr, h⟩ := (Option.any_eq_true _ _).mp h
  rw [Bool.and_eq_true, Bool.and_eq_true] at h
  obtain ⟨⟨hc, hkeep⟩, hfree⟩ := h
  refine ⟨p, a, ev, r, ha, ht, hr, ?_, fun p' hp hlen => ?_, fun he => ?_⟩
  · obtain ⟨c, hmem, hc⟩ := List.any_eq_true.mp hc
    rw [Bool.and_eq_true, Bool.and_eq_true, decide_eq_true_eq, decide_eq_true_eq, decide_eq_true_eq] at hc
    exact ⟨c, hmem, hc.1.1, hc.1.2, hc.2⟩
  · have hp' := List.all_eq_true.mp hkeep p' (List.mem_range.mpr (Nat.lt_succ_of_le hlen))
    rw [Bool.or_eq_true, decide_eq_true_eq, decide_eq_true_eq] at hp'
    exact hp'.resolve_left (Nat.not_lt.mpr hp)
  rw [show pickFreeVip _ _ = none from he] at hfree
  cases hfree

def memberAt (vip : UInt32) (nodeId : String) (vipEpoch : Nat) : Member :=
  Member.new { Engine.new (.new 0) vip nodeId 24 0 with vipEpoch := vipEpoch } 4096 0

def say (i : Fin n) : Action (Fin n) := .announce i false 100 (some wireProtocolVersion) none

def hear (k : Nat) (i j : Fin n) : Action (Fin n) :=
  .deliver k i (.v4 (0xC0A80101 + UInt32.ofNat j.val) 7777) true Member.quietEnv

end

def rivals : ClaimNet (Fin 2) where
  members i := if i = 0 then memberAt 0x0A000009 "a" 0 else memberAt 0x0A000009 "b" 0
  sent := []

/-- The larger one hears the smaller one, moves, and both hear each other. -/
def rivalsMeet : List (Action (Fin 2)) := [say 0, hear 0 1 0, say 1, hear 1 0 1, hear 0 1 0]

theorem rivals_unique : Injective (run (step .transparent mute) rivals rivalsMeet).vipOf ∧
    (stateAt (step .transparent mute) rivals rivalsMeet 2).vipOf 1 ≠
    (stateAt (step .transparent mute) rivals rivalsMeet 1).vipOf 1 := by
  have hu : Each (step .transparent mute) rivals rivalsMeet (Unsaturated .transparent mute) := by
    intro p a ha i _
    have hp : p < 5 := (List.getElem?_eq_some_iff.mp ha).1
    have hsmall : ∀ p < 5, ∀ i, (stateAt (step .transparent mute) rivals rivalsMeet p).epochOf i <
        2 ^ 64 - 1 := by decide +kernel
    exact hsmall p hp i
  have hall : ∀ i j : Fin 2, i ≠ j → rivals.processedAt rivalsMeet i j (if i = 0 then 3 else 4) = true := by
    decide +kernel
  have hids : Injective rivals.idOf := by decide +kernel
  have hclaims : ∀ i, (rivals.members i).claimMap = ∅ := by decide +kernel
  exact ⟨(vips_unique hids hclaims rfl hu).1 fun i j hij => hasProcessed_of_processedAt
    (hall i j hij), by decide +kernel⟩

/-- As `rivals`, but the one that moves has the last epoch, and a third member has the address it moves to. -/
def lastEpoch : ClaimNet (Fin 3) where
  members i := if i = 0 then memberAt 0x0A000009 "a" 0
    else if i = 1 then memberAt 0x0A000009 "b" (2 ^ 64 - 1) else memberAt 0x0A000061 "c" 0
  sent := []

/-- Member `c` has heard `b` before it moves; the new claim of `b` has no larger epoch and is ignored. -/
def lastEpochMeet : List (Action (Fin 3)) :=
  [say 1, hear 0 2 1, say 0, hear 1 1 0, say 1, hear 2 2 1, hear 2 0 1, say 2, hear 1 2 0, hear 1 1 0, hear 3 0 2,
    hear 3 1 2]

def heardAt : Fin 3 → Fin 3 → Nat
  | 0, 1 => 6
  | 0, _ => 10
  | 1, 0 => 9
  | 1, _ => 11
  | 2, 0 => 8
  | 2, _ => 5

theorem saturated_epoch_keeps_conflict : Injective lastEpoch.idOf ∧ (∀ i, (lastEpoch.members i).claimMap = ∅)
    ∧ lastEpoch.sent = [] ∧ (∀ i j, i ≠ j → HasProcessed .transparent mute lastEpoch lastEpochMeet i j) ∧
    (run (step .transparent mute) lastEpoch lastEpochMeet).vipOf 1 =
    (run (step .transparent mute) lastEpoch lastEpochMeet).vipOf 2 := by
  have hall : ∀ i j : Fin 3, i ≠ j → lastEpoch.processedAt lastEpochMeet i j (heardAt i j) = true := by decide +kernel
  exact ⟨by decide +kernel, by decide +kernel, rfl, fun i j hij => hasProcessed_of_processedAt (hall i j hij),
    by decide +kernel⟩

end ClaimNet

end ConnectUnit
