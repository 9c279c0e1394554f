import ConnectUnit.Lib.Machine
import ConnectUnit.Lib.Spending
import ConnectUnit.PmtudWindow

/-!
# Soundness of path MTU discovery

A tick passes over the map several times.
-/

namespace ConnectUnit.Pmtud

variable {ep : SocketAddr} {p q : PeerState} {k : Knobs} {now : Instant}
variable {n : Nat} {ep' peerAddr peer : SocketAddr} {probeId : UInt32}

/-! ## A tick, seen from one peer -/

open Spending

def sentTo (ep : SocketAddr) (intents : List ProbeIntent) : Nat := intents.countP (·.peer = ep)

theorem sentTo_append {l l' : List ProbeIntent} : sentTo ep (l ++ l') = sentTo ep l + sentTo ep l' :=
  List.countP_append

theorem sentTo_singleton (ep' : SocketAddr) (size : Nat) (id gen : UInt32) :
    sentTo ep [⟨ep', size, id, gen⟩] = if ep' = ep then 1 else 0 := by
  unfold sentTo
  rw [List.countP_singleton]
  simp only [decide_eq_true_eq]

inductive TickStep (k : Knobs) (now : Instant) (ep : SocketAddr) : PeerState → Nat → PeerState → Prop
  | healed {p : PeerState} : p.NeedsHeal ep → TickStep k now ep p 0 (p.healed k now)
  | measured {p : PeerState} (rtt : ℚ) (alive : Bool) :
      TickStep k now ep p 0 { p with rttMs := rtt, largeAlive := alive }
  | graceExpired {p : PeerState} {g : GraceProbe} : p.grace = some g → g.deadline ≤ now →
      TickStep k now ep p 0 (PeerState.confirmedFail { p with grace := none } k now ep g.size)
  | timedOut {p : PeerState} {inf : Inflight} (id : UInt32) : p.inflight = some inf → inf.deadline ≤ now →
      inf.probeId ≠ 0 →
      TickStep k now ep p (if (p.timedOut k now ep id inf).2 then 1 else 0) (p.timedOut k now ep id inf).1
  | started {p : PeerState} : TickStep k now ep p 0 (p.startPhase k now)
  | asked {p q : PeerState} : p.nextProbe k now = (q, none) → TickStep k now ep p 0 q
  | probed {p q : PeerState} {size : Nat} (id : UInt32) (dl : Instant) : p.nextProbe k now = (q, some size) →
      now < dl → TickStep k now ep p 1 (q.beginProbe id size dl k.confirmCount)

theorem nextProbe_of_eq {r : PeerState × Option Nat} (h : p.nextProbe k now = r) : NextProbe k now p r :=
  h ▸ nextProbe_spec p k now

theorem TickStep.window (h : Window ep p) (hs : TickStep k now ep p n q) : Window ep q := by
  cases hs with
  | healed _ => exact window_healed
  | measured rtt alive => exact h.measured
  | graceExpired hg _ => exact h.graceExpired hg
  | timedOut id hi _ _ => exact h.timedOut hi
  | started => exact h.startPhase
  | asked heq => exact (h.nextProbe (nextProbe_of_eq heq)).1
  | probed id dl heq _ => exact ((h.nextProbe (nextProbe_of_eq heq)).2 _ rfl).beginProbe id dl _

theorem Window.steps (h : Window ep p) (hs : Spends (TickStep k now ep) p n q) : Window ep q := by
  induction hs with
  | refl => exact h
  | tail _ hstep ih => exact hstep.window ih

def Arises (now : Instant) (active : List SocketAddr) (d : PathMtuDiscovery) (ep : SocketAddr) (p : PeerState) :
    Prop :=
  d.peers.lookup ep = some p ∨ d.peers.lookup ep = none ∧ ep ∈ active ∧ p = PeerState.new d.knobs now

structure Evolves (now : Instant) (active : List SocketAddr) (d : PathMtuDiscovery) (out : List ProbeIntent)
    (d' : PathMtuDiscovery) : Prop where
  knobs : d'.knobs = d.knobs
  pinned : d'.pinned = d.pinned
  gone : ∀ ep, d'.peers.lookup ep = none → d.peers.lookup ep = none ∧ sentTo ep out = 0
  peer : ∀ ep q, d'.peers.lookup ep = some q →
    ∃ p, Arises now active d ep p ∧ Spends (TickStep d.knobs now ep) p (sentTo ep out) q

namespace Evolves

variable {active : List SocketAddr} {d d' d'' : PathMtuDiscovery} {out out' : List ProbeIntent}

theorem of_same (hk : d'.knobs = d.knobs) (hp : d'.pinned = d.pinned) (hs : d'.peers = d.peers) :
    Evolves now active d [] d' where
  knobs := hk
  pinned := hp
  gone := by intro ep h; rw [hs] at h; exact ⟨h, rfl⟩
  peer := by intro ep p h; rw [hs] at h; exact ⟨p, .inl h, .refl⟩

theorem refl (d : PathMtuDiscovery) : Evolves now active d [] d := of_same rfl rfl rfl

theorem trans (h : Evolves now active d out d') (h' : Evolves now active d' out' d'') :
    Evolves now active d (out ++ out') d'' where
  knobs := h'.knobs.trans h.knobs
  pinned := h'.pinned.trans h.pinned
  gone ep hn := by
    obtain ⟨hn', hout'⟩ := h'.gone ep hn
    obtain ⟨hn, hout⟩ := h.gone ep hn'
    exact ⟨hn, by rw [sentTo_append, hout, hout']⟩
  peer ep q hq := by
    obtain ⟨p', ha, hs'⟩ := h'.peer ep q hq
    rw [h.knobs] at hs'
    rw [sentTo_append]
    rcases ha with ha | ⟨hn, hact, rfl⟩
    · obtain ⟨p, ha', hs⟩ := h.peer ep p' ha
      exact ⟨p, ha', hs.trans hs'⟩
    obtain ⟨hn', hout⟩ := h.gone ep hn
    rw [h.knobs] at hs'
    exact ⟨_, .inr ⟨hn', hact, rfl⟩, by rw [hout, Nat.zero_add]; exact hs'⟩

theorem insert (ha : Arises now active d ep p) (hs : TickStep d.knobs now ep p n q)
    (hk : d'.knobs = d.knobs) (hp : d'.pinned = d.pinned) (hq : d'.peers = d.peers.insert ep q)
    (hout : ∀ ep', sentTo ep' out = if ep = ep' then n else 0) : Evolves now active d out d' where
  knobs := hk
  pinned := hp
  gone ep' h := by
    rw [hq, HashMap.lookup_insert_eq] at h
    split at h
    · cases h
    next he => exact ⟨h, by rw [hout, if_neg (Ne.symm he)]⟩
  peer ep' q' h := by
    rw [hq, HashMap.lookup_insert_eq] at h
    rw [hout]
    split at h
    next he =>
      subst he
      cases h
      rw [if_pos rfl]
      exact ⟨p, ha, .single hs⟩
    next he =>
      rw [if_neg (Ne.symm he)]
      exact ⟨q', .inl h, .refl⟩

theorem quiet (ha : Arises now active d ep p) (hs : TickStep d.knobs now ep p 0 q) (hk : d'.knobs = d.knobs)
    (hp : d'.pinned = d.pinned) (hq : d'.peers = d.peers.insert ep q) : Evolves now active d [] d' :=
  insert ha hs hk hp hq fun _ => (ite_self 0).symm

end Evolves

section
variable {active : List SocketAddr} (d : PathMtuDiscovery)

theorem heal_lookup : (d.healUnackedPrivateFloor now).peers.lookup ep =
    (d.peers.lookup ep).map fun p => if p.NeedsHeal ep then p.healed d.knobs now else p := by
  unfold PathMtuDiscovery.healUnackedPrivateFloor
  dsimp only
  split
  · exact HashMap.lookup_mapWithKey _ _
  rename_i hany
  simp only [List.any_eq_true, decide_eq_true_eq, not_exists, not_and] at hany
  cases hp : d.peers.lookup ep with
  | none => rfl
  | some p =>
    have hno := hany ⟨ep, p⟩ ((HashMap.lookup_eq_some_iff _).mp hp)
    rw [Option.map_some, if_neg hno]

theorem heal_settings (now : Instant) : (d.healUnackedPrivateFloor now).knobs = d.knobs ∧
    (d.healUnackedPrivateFloor now).pinned = d.pinned := by
  unfold PathMtuDiscovery.healUnackedPrivateFloor
  dsimp only
  split
  · exact ⟨rfl, rfl⟩
  exact ⟨rfl, rfl⟩

theorem heal_evolves (now : Instant) : Evolves now active d [] (d.healUnackedPrivateFloor now) := by
  obtain ⟨hk, hp⟩ := heal_settings d now
  refine ⟨hk, hp, fun ep h => ?_, fun ep q h => ?_⟩
  · rw [heal_lookup] at h
    exact ⟨Option.map_eq_none_iff.mp h, rfl⟩
  rw [heal_lookup] at h
  obtain ⟨p, hp, rfl⟩ := Option.map_eq_some_iff.mp h
  refine ⟨p, .inl hp, ?_⟩
  split
  · rename_i hn; exact .single (.healed hn)
  exact .refl

theorem intakes_evolve (now : Instant) (inputs : List PeerTickInput) (hp : d.pinned = none)
    (hin : ∀ input ∈ inputs, input.addr ∈ active) :
    Evolves now active d [] (inputs.foldl (fun d input => d.intake now input) d) := by
  induction inputs generalizing d with
  | nil => exact .refl d
  | cons input inputs ih =>
    have h : Evolves now active d [] (d.intake now input) := by
      unfold PathMtuDiscovery.intake
      refine .quiet ?_ (.measured _ _) rfl rfl rfl
      unfold PathMtuDiscovery.ensurePeer
      rw [hp]
      cases h : d.peers.lookup input.addr with
      | none => exact .inr ⟨h, hin input List.mem_cons_self, rfl⟩
      | some p => exact .inl h
    refine h.trans (ih _ (h.pinned.trans hp) fun i hi => ?_)
    exact hin i (List.mem_cons_of_mem input hi)

def GraceDue (now : Instant) (d : PathMtuDiscovery) (ep : SocketAddr) : Prop :=
  ∃ p g, d.peers.lookup ep = some p ∧ p.grace = some g ∧ g.deadline ≤ now

def InflightDue (now : Instant) (d : PathMtuDiscovery) (ep : SocketAddr) : Prop :=
  ∃ p inf, d.peers.lookup ep = some p ∧ p.inflight = some inf ∧ inf.deadline ≤ now ∧ inf.probeId ≠ 0

theorem expireGrace_eq (now : Instant) {p : PeerState} (hp : d.peers.lookup ep = some p) :
    (d.expireGrace now ep).knobs = d.knobs ∧ (d.expireGrace now ep).pinned = d.pinned ∧
      (d.expireGrace now ep).peers = d.peers.insert ep
        (PeerState.confirmedFail { p with grace := none } d.knobs now ep
          ((p.grace.map (·.size)).getD minMtuBound)) := by
  unfold PathMtuDiscovery.expireGrace PathMtuDiscovery.applyTimeoutConfirmedFail PathMtuDiscovery.setPeer
  simp only [hp, AList.lookup_insert, AList.insert_insert]
  split
  · exact ⟨rfl, rfl, rfl⟩
  exact ⟨rfl, rfl, rfl⟩

theorem expireGrace_evolves (h : GraceDue now d ep) : Evolves now active d [] (d.expireGrace now ep) := by
  obtain ⟨p, g, hp, hg, hdl⟩ := h
  obtain ⟨hk, hpin, hpeers⟩ := expireGrace_eq d now hp
  rw [hg] at hpeers
  exact .quiet (.inl hp) (.graceExpired hg hdl) hk hpin hpeers

theorem onTimeout_evolves (h : InflightDue now d ep) :
    Evolves now active d (d.onTimeout ep now).2.toList (d.onTimeout ep now).1 := by
  obtain ⟨p, inf, hp, hi, hdl, hid⟩ := h
  have hstep : TickStep d.knobs now ep p _ _ := .timedOut (d.probeIdCounter + 1) hi hdl hid
  unfold PathMtuDiscovery.onTimeout
  simp only [hp, hi]
  split
  next hsent =>
    rw [if_pos hsent] at hstep
    exact .insert (.inl hp) hstep rfl rfl rfl fun ep' => sentTo_singleton ..
  next hsent =>
    rw [if_neg hsent] at hstep
    exact .quiet (.inl hp) hstep rfl rfl rfl

theorem startPhase_evolves : Evolves now active d [] (d.startPhase now ep) := by
  unfold PathMtuDiscovery.startPhase
  split
  · exact .refl d
  rename_i p hp; exact .quiet (.inl hp) .started rfl rfl rfl

theorem timeoutForPeer_pos : 0 < p.timeoutForPeer k := by
  have hpos := k.probeTimeoutMs_pos
  unfold PeerState.timeoutForPeer millis adaptiveTimeoutCapMs
  split
  · omega
  dsimp only; omega

theorem issueProbe_evolves : Evolves now active d (d.issueProbe ep now).2.toList (d.issueProbe ep now).1 := by
  unfold PathMtuDiscovery.issueProbe
  split
  · exact .refl d
  rename_i p hp
  dsimp only
  split
  · rename_i heq
    exact .quiet (.inl hp) (.asked heq) rfl rfl rfl
  rename_i heq
  have hdl : now < now + p.timeoutForPeer d.knobs := Nat.lt_add_of_pos_right timeoutForPeer_pos
  exact .insert (.inl hp) (.probed _ _ heq hdl) rfl rfl rfl fun ep' => sentTo_singleton ..

/-! ## The loops of a tick -/

theorem expireGrace_lookup_ne {ep : SocketAddr} (hne : ep' ≠ ep) :
    (d.expireGrace now ep).peers.lookup ep' = d.peers.lookup ep' := by
  cases hp : d.peers.lookup ep with
  | none => simp only [PathMtuDiscovery.expireGrace, hp]
  | some p => rw [(expireGrace_eq d now hp).2.2, HashMap.lookup_insert_eq, if_neg hne]

theorem onTimeout_lookup_ne {ep : SocketAddr} (hne : ep' ≠ ep) :
    (d.onTimeout ep now).1.peers.lookup ep' = d.peers.lookup ep' := by
  unfold PathMtuDiscovery.onTimeout PathMtuDiscovery.setPeer
  split
  · rfl
  split
  · rfl
  dsimp only
  split
  · rw [HashMap.lookup_insert_eq, if_neg hne]
  rw [HashMap.lookup_insert_eq, if_neg hne]

theorem eachPeer_fst {f : PathMtuDiscovery → SocketAddr → PathMtuDiscovery × Option ProbeIntent}
    {eps : List SocketAddr} : (PathMtuDiscovery.eachPeer f d eps).1 = eps.foldl (fun d ep => (f d ep).1) d := by
  unfold PathMtuDiscovery.eachPeer
  generalize ([] : List ProbeIntent) = intents
  induction eps generalizing d intents with
  | nil => rfl
  | cons ep eps ih => rw [List.foldl_cons, List.foldl_cons, ih]

theorem selected_spec {P : PeerState → Bool} (order : IterOrder) :
    (order.arrange ((d.peers.entries.filter fun e => P e.2).map (·.1))).Nodup ∧ ∀ ep ∈ order.arrange
    ((d.peers.entries.filter fun e => P e.2).map (·.1)), ∃ p, d.peers.lookup ep = some p ∧ P p = true := by
  constructor
  · rw [(order.arrange_perm _).nodup_iff]
    exact List.Nodup.sublist (List.Sublist.map _ List.filter_sublist) d.peers.nodupKeys
  intro ep h
  rw [order.mem_arrange, List.mem_map] at h
  obtain ⟨e, he, rfl⟩ := h
  rw [List.mem_filter] at he
  exact ⟨e.2, (HashMap.lookup_eq_some_iff _).mpr he.1, he.2⟩

theorem expireGraces_evolve (now : Instant) (order : IterOrder) :
    Evolves now active d [] ((order.arrange (d.graceExpired now)).foldl (fun d ep => d.expireGrace now ep) d) := by
  obtain ⟨hnd, hmem⟩ := selected_spec (P := fun p => p.grace.any fun g => g.deadline ≤ now) d order
  refine Machine.foldl_rel_of_guard (R := (Evolves now active · [] ·)) (G := GraceDue now) .refl
    (fun _ _ _ h h' => h.trans h') (fun d ep => expireGrace_evolves d) ?_ _ hnd d ?_
  · intro d ep ep' hne h
    obtain ⟨p, g, hp, h⟩ := h
    exact ⟨p, g, (expireGrace_lookup_ne d hne).trans hp, h⟩
  intro ep hep
  obtain ⟨p, hp, hdue⟩ := hmem ep hep
  obtain ⟨g, hg, hdl⟩ := (Option.any_eq_true _ _).mp hdue
  exact ⟨p, g, hp, hg, of_decide_eq_true hdl⟩

theorem onTimeouts_evolve (now : Instant) (order : IterOrder) :
    let r := PathMtuDiscovery.eachPeer (fun d ep => d.onTimeout ep now) d (order.arrange (d.inflightExpired now))
    Evolves now active d r.2 r.1 := by
  intro r
  obtain ⟨hnd, hmem⟩ :=
    selected_spec (P := fun p => p.inflight.any fun inf => inf.deadline ≤ now ∧ inf.probeId ≠ 0) d order
  -- the loop carries the probes sent so far beside the state
  let R (r r' : PathMtuDiscovery × List ProbeIntent) : Prop :=
    ∃ out, r'.2 = r.2 ++ out ∧ Evolves now active r.1 out r'.1
  have hloop : R (d, []) r := by
    refine Machine.foldl_rel_of_guard (R := R) (G := fun r => InflightDue now r.1)
      (fun r => ⟨[], (List.append_nil _).symm, .refl _⟩) ?_
      (fun r ep h => ⟨_, rfl, onTimeout_evolves r.1 h⟩) ?_ _ hnd _ ?_
    · rintro r r' r'' ⟨out, hr', h⟩ ⟨out', hr'', h'⟩
      exact ⟨out ++ out', by rw [hr'', hr', List.append_assoc], h.trans h'⟩
    · rintro r ep ep' hne ⟨p, inf, hp, h⟩
      exact ⟨p, inf, (onTimeout_lookup_ne r.1 hne).trans hp, h⟩
    intro ep hep
    obtain ⟨p, hp, hdue⟩ := hmem ep hep
    obtain ⟨inf, hi, hdl⟩ := (Option.any_eq_true _ _).mp hdue
    exact ⟨p, inf, hp, hi, of_decide_eq_true hdl⟩
  obtain ⟨out, hout, h⟩ := hloop
  rw [List.nil_append] at hout
  rw [hout]
  exact h

theorem startPhases_evolve (now : Instant) (eps : List SocketAddr) :
    Evolves now active d [] (eps.foldl (fun d ep => d.startPhase now ep) d) :=
  Machine.foldl_rel (R := (Evolves now active · [] ·)) .refl (fun _ _ _ h h' => h.trans h')
    (fun d _ => startPhase_evolves d) eps d

/-- What each probe does, all of them do. -/
theorem issueUpTo_rel {R : PathMtuDiscovery → List ProbeIntent → PathMtuDiscovery → Prop} (hrefl : ∀ d, R d [] d)
    (htrans : ∀ d d' d'' out out', R d out d' → R d' out' d'' → R d (out ++ out') d'') (now : Instant)
    (hstep : ∀ d ep, R d (d.issueProbe ep now).2.toList (d.issueProbe ep now).1) (cap : Nat) (eps : List SocketAddr) :
    R d (PathMtuDiscovery.issueUpTo now d cap eps).2 (PathMtuDiscovery.issueUpTo now d cap eps).1 := by
  induction eps generalizing d cap with
  | nil => cases cap <;> exact hrefl d
  | cons ep eps ih =>
    cases cap with
    | zero => exact hrefl d
    | succ cap =>
      have h := hstep d ep
      unfold PathMtuDiscovery.issueUpTo
      split
      · rename_i d' heq; rw [heq] at h; exact htrans _ _ _ _ _ h (ih d' (cap + 1))
      rename_i d' intent heq; rw [heq] at h; exact htrans _ _ _ _ _ h (ih d' cap)

theorem issueProbes_evolves (now : Instant) (eps : List SocketAddr) (already : Nat) :
    Evolves now active d (d.issueProbes now eps already).2 (d.issueProbes now eps already).1 := by
  have hloop (cap : Nat) (eps : List SocketAddr) :=
    issueUpTo_rel d (R := Evolves now active) .refl (fun _ _ _ _ _ h h' => h.trans h') now
      (fun d ep => issueProbe_evolves d) cap eps
  unfold PathMtuDiscovery.issueProbes
  dsimp only
  split
  · exact .refl d
  exact ⟨(hloop _ _).knobs, (hloop _ _).pinned, (hloop _ _).gone, (hloop _ _).peer⟩

theorem dropStale_lookup (inputs : List PeerTickInput) (ep : SocketAddr) :
    (d.dropStale inputs).peers.lookup ep = if ep ∈ inputs.map (·.addr) then d.peers.lookup ep else none := by
  unfold PathMtuDiscovery.dropStale
  dsimp only
  split
  · rename_i hall
    simp only [List.all_eq_true, decide_eq_true_eq] at hall
    by_cases hep : ep ∈ inputs.map (·.addr)
    · rw [if_pos hep]
    rw [if_neg hep]
    refine AList.lookup_eq_none.mpr fun hmem => hep (hall ep (AList.mem_keys.mp hmem))
  show (d.peers.retain fun ep _ => ep ∈ inputs.map (·.addr)).lookup ep = _
  rw [HashMap.lookup_retain]
  by_cases hep : ep ∈ inputs.map (·.addr)
  · rw [if_pos hep]
    simp only [hep, decide_true]
    cases d.peers.lookup ep with
    | none => rfl
    | some p => rfl
  · rw [if_neg hep]; simp [hep]

theorem dropStale_settings (inputs : List PeerTickInput) :
    (d.dropStale inputs).knobs = d.knobs ∧ (d.dropStale inputs).pinned = d.pinned := by
  unfold PathMtuDiscovery.dropStale
  dsimp only
  split
  · exact ⟨rfl, rfl⟩
  exact ⟨rfl, rfl⟩

theorem onTick_spec (hpin : d.pinned = none) (now : Instant) (inputs : List PeerTickInput) (order : IterOrder) :
    (d.onTick now inputs order).1.pinned = none ∧ (d.onTick now inputs order).1.knobs = d.knobs ∧ ∀ ep,
    ((d.onTick now inputs order).1.peers.lookup ep = none → sentTo ep (d.onTick now inputs order).2 = 0) ∧ ∀ q,
    (d.onTick now inputs order).1.peers.lookup ep = some q → ∃ p, Arises now (inputs.map (·.addr)) d ep p ∧ Spends
    (TickStep d.knobs now ep) p (sentTo ep (d.onTick now inputs order).2) q := by
  unfold PathMtuDiscovery.onTick
  rw [hpin]
  simp only [Option.isSome_none, Bool.false_eq_true, if_false]
  have hheal : Evolves now (inputs.map (·.addr)) d [] (d.healUnackedPrivateFloor now) := heal_evolves d now
  obtain ⟨hk, hpin'⟩ := dropStale_settings (d.healUnackedPrivateFloor now) inputs
  rw [hheal.knobs] at hk
  rw [hheal.pinned, hpin] at hpin'
  have hdrop := dropStale_lookup (d.healUnackedPrivateFloor now) inputs
  generalize (d.healUnackedPrivateFloor now).dropStale inputs = d₁ at hk hdrop hpin'
  have hstarted := (((intakes_evolve d₁ now inputs hpin' fun i hi => List.mem_map_of_mem hi).trans
    (expireGraces_evolve _ now order)).trans (onTimeouts_evolve _ now order)).trans
    (startPhases_evolve _ now (inputs.map (·.addr)))
  rw [List.append_nil] at hstarted
  have hlast := fun n => hstarted.trans (issueProbes_evolves _ now (inputs.map (·.addr)) n)
  refine ⟨(hlast _).pinned.trans hpin', (hlast _).knobs.trans hk, fun ep => ⟨fun h => ((hlast _).gone ep h).2, ?_⟩⟩
  intro q h
  obtain ⟨p₁, ha, hs⟩ := (hlast _).peer ep q h
  rw [hk] at hs
  rcases ha with ha | ⟨hn, hact, rfl⟩
  · rw [hdrop] at ha
    split at ha
    · obtain ⟨p, ha', hs'⟩ := hheal.peer ep p₁ ha
      have hall := hs'.trans hs
      rw [show sentTo ep [] = 0 from rfl, Nat.zero_add] at hall
      exact ⟨p, ha', hall⟩
    · cases ha
  rw [hdrop, if_pos hact] at hn
  rw [hk] at hs
  exact ⟨_, .inr ⟨(hheal.gone ep hn).1, hact, rfl⟩, hs⟩

end

/-! ## An acknowledgement, seen from one peer -/

inductive AckStep (k : Knobs) (now : Instant) (peerAddr : SocketAddr) (size : Nat) (ep : SocketAddr) :
    PeerState → PeerState → Prop
  | untouched {p : PeerState} : AckStep k now peerAddr size ep p p
  | late {p : PeerState} {g : GraceProbe} : p.grace = some g → AckStep k now peerAddr size ep p (p.lateAcked k now)
  | acked {p : PeerState} {inf : Inflight} : p.inflight = some inf → inf.size = clampSize size → peerAddr.ip = ep.ip →
      AckStep k now peerAddr size ep p (p.acked k now inf.size)

section
variable {d : PathMtuDiscovery}

theorem resolveAck_ip {ep : SocketAddr} {sz : Nat} {searchGen : UInt32} {now : Instant}
    (h : d.resolveAck peerAddr sz probeId searchGen now = some ep) : peerAddr.ip = ep.ip := by
  unfold PathMtuDiscovery.resolveAck at h
  split at h
  · cases h; rfl
  dsimp only at h
  split at h
  · rename_i e hc
    cases h
    have hmem : e ∈ d.peers.entries.filter fun e => e.1.ip = peerAddr.ip ∧
        (e.2.InflightMatches sz probeId searchGen ∨ e.2.GraceMatches now sz probeId searchGen) := by
      rw [hc]; exact List.mem_singleton_self e
    exact (of_decide_eq_true (List.mem_filter.mp hmem).2).1.symm
  · cases h

theorem onAck_spec (d : PathMtuDiscovery) (peerAddr : SocketAddr) (size : Nat) (probeId searchGen : UInt32)
    (now : Instant) : (d.onAck peerAddr size probeId searchGen now).1.pinned = d.pinned ∧
    (d.onAck peerAddr size probeId searchGen now).1.knobs = d.knobs ∧ ∀ ep p',
    (d.onAck peerAddr size probeId searchGen now).1.peers.lookup ep = some p' → ∃ p, d.peers.lookup ep = some p ∧
    AckStep d.knobs now peerAddr size ep p p' := by
  have hsame : ∀ ep p', d.peers.lookup ep = some p' →
      ∃ p, d.peers.lookup ep = some p ∧ AckStep d.knobs now peerAddr size ep p p' :=
    fun _ p' hp => ⟨p', hp, .untouched⟩
  have hinsert : ∀ ep p q, d.peers.lookup ep = some p → AckStep d.knobs now peerAddr size ep p q → ∀ ep' p',
      (d.peers.insert ep q).lookup ep' = some p' →
        ∃ p, d.peers.lookup ep' = some p ∧ AckStep d.knobs now peerAddr size ep' p p' := by
    intro ep p q hp hs ep' p' hl
    rw [HashMap.lookup_insert_eq] at hl
    split at hl
    · rename_i he; subst he; cases hl; exact ⟨p, hp, hs⟩
    exact hsame ep' p' hl
  unfold PathMtuDiscovery.onAck
  split
  · exact ⟨rfl, rfl, hsame⟩
  dsimp only
  split
  · exact ⟨rfl, rfl, hsame⟩
  rename_i ep hres
  split
  · exact ⟨rfl, rfl, hsame⟩
  rename_i p hp
  split
  · rename_i hm
    obtain ⟨_, g, hg, _⟩ := hm
    exact ⟨rfl, rfl, hinsert ep p _ hp (.late hg)⟩
  split
  · rename_i hm
    obtain ⟨inf, hi, _, _, _, hsz⟩ := hm
    rw [← hsz]
    exact ⟨rfl, rfl, hinsert ep p _ hp (.acked hi hsz (resolveAck_ip hres))⟩
  · exact ⟨rfl, rfl, hsame⟩

end

/-! ## The other operations, seen from one peer -/

inductive OffTick (k k' : Knobs) (ep : SocketAddr) : PeerState → PeerState → Prop
  | ack {now : Instant} {peerAddr : SocketAddr} {size : Nat} {p q : PeerState} : k' = k →
      AckStep k now peerAddr size ep p q → OffTick k k' ep p q
  | hardFail {now : Instant} {p : PeerState} {inf : Inflight} : k' = k → p.inflight = some inf →
      OffTick k k' ep p (p.sendHardFailed k now ep inf.size)
  | woken {now : Instant} {p q : PeerState} : k' = k → p.phase = .plateau ∨ p.phase = .frozen →
      q = { p with nextRaiseAt := now, lastRevalidateHintAt := some now } ∨
        q = { p with nextRaiseAt := now, lastEarlyWakeAt := some now } → OffTick k k' ep p q
  | retuned {now : Instant} {p : PeerState} : OffTick k k' ep p (p.retuned k' now)
  | period {p : PeerState} (r : Nat) : k' = { k with raisePeriod := r } → OffTick k k' ep p p

structure Off (d d' : PathMtuDiscovery) : Prop where
  pinned : d'.pinned = d.pinned
  peer : ∀ ep q, d'.peers.lookup ep = some q → ∃ p, d.peers.lookup ep = some p ∧
    if d.pinned.isSome then q = p else OffTick d.knobs d'.knobs ep p q

section
variable {d d' : PathMtuDiscovery}

theorem Off.of_sub (hp : d'.pinned = d.pinned) (hk : d'.knobs = d.knobs)
    (hs : ∀ ep q, d'.peers.lookup ep = some q → d.peers.lookup ep = some q) : Off d d' := by
  refine ⟨hp, fun ep q hl => ⟨q, hs ep q hl, ?_⟩⟩
  split
  · rfl
  exact .ack hk (AckStep.untouched : AckStep _ 0 ep 0 ep _ _)

theorem Off.refl (d : PathMtuDiscovery) : Off d d := .of_sub rfl rfl fun _ _ h => h

theorem Off.insert (hpin : ¬ d.pinned.isSome = true) (hl : d.peers.lookup ep = some p)
    (ho : OffTick d.knobs d'.knobs ep p q) (hp : d'.pinned = d.pinned) (hk : d'.knobs = d.knobs)
    (hq : d'.peers = d.peers.insert ep q) : Off d d' := by
  refine ⟨hp, fun ep' q' hl' => ?_⟩
  rw [hq, HashMap.lookup_insert_eq] at hl'
  simp only [if_neg hpin]
  split at hl'
  · rename_i he
    subst he
    cases hl'
    exact ⟨p, hl, ho⟩
  · exact ⟨q', hl', .ack hk (AckStep.untouched : AckStep _ 0 ep 0 ep' _ _)⟩

theorem off_onSendHardFail : Off d (d.onSendHardFail peerAddr probeId now) := by
  unfold PathMtuDiscovery.onSendHardFail
  split
  · exact .refl d
  rename_i hpin
  split
  · exact .refl d
  rename_i p hp
  split
  · exact .refl d
  rename_i inf hi
  split
  · exact .refl d
  split
  · exact .insert hpin hp (.hardFail rfl hi) rfl rfl rfl
  exact .insert hpin hp (.hardFail rfl hi) rfl rfl rfl

theorem off_requestWake {cooldown : Nat} {last : PeerState → Option Instant} {note : PeerState → PeerState}
    (hnote : ∀ p : PeerState, note (p.woken now) = { p with nextRaiseAt := now, lastRevalidateHintAt := some now } ∨
      note (p.woken now) = { p with nextRaiseAt := now, lastEarlyWakeAt := some now }) :
    Off d (d.requestWake cooldown last note peer now).1 := by
  unfold PathMtuDiscovery.requestWake
  split
  · exact .refl d
  rename_i hpin
  split
  · exact .refl d
  rename_i p hp
  split
  · exact .refl d
  split
  · rename_i hrest
    exact .insert hpin hp (.woken rfl hrest (hnote p)) rfl rfl rfl
  exact .refl d

theorem off_applyTuning {t : ClampedTuning} : Off d (d.applyTuning t now) := by
  unfold PathMtuDiscovery.applyTuning
  dsimp only
  split
  · rename_i hpin
    exact ⟨rfl, fun ep q hl => ⟨q, hl, by rw [if_pos hpin]⟩⟩
  rename_i hpin
  refine ⟨rfl, fun ep q hl => ?_⟩
  rw [HashMap.lookup_mapVals] at hl
  obtain ⟨p, hp, rfl⟩ := Option.map_eq_some_iff.mp hl
  exact ⟨p, hp, by rw [if_neg hpin]; exact .retuned⟩

theorem off_removePeer : Off d (d.removePeer peer) := by
  unfold PathMtuDiscovery.removePeer
  split
  · refine .of_sub rfl rfl fun ep p hl => ?_
    replace hl : (d.peers.erase peer).lookup ep = some p := hl
    rw [HashMap.lookup_erase_eq] at hl
    split at hl
    · cases hl
    exact hl
  · exact .refl d

theorem off_step (d : PathMtuDiscovery) {op : Op} (htick : ∀ now inputs order, op ≠ .onTick now inputs order)
    (hpin : ∀ pathMtu now, op ≠ .setPinned pathMtu now) : Off d (step d op).1 := by
  cases op with
  | onTick now inputs order => exact absurd rfl (htick now inputs order)
  | setPinned pathMtu now => exact absurd rfl (hpin pathMtu now)
  | onAck peerAddr size probeId searchGen now =>
    obtain ⟨hp, hk, hpeer⟩ := onAck_spec d peerAddr size probeId searchGen now
    by_cases hpin : d.pinned.isSome = true
    · simp only [step, PathMtuDiscovery.onAck, hpin, if_true]
      exact .refl d
    refine ⟨hp, fun ep q hl => ?_⟩
    obtain ⟨p, hl', hs⟩ := hpeer ep q hl
    exact ⟨p, hl', by rw [if_neg hpin]; exact .ack hk hs⟩
  | onSendHardFail peerAddr probeId now => exact off_onSendHardFail
  | applyTuning t now => exact off_applyTuning
  | setRaisePeriod period =>
    refine ⟨rfl, fun ep q hl => ⟨q, hl, ?_⟩⟩
    split
    · rfl
    exact .period _ rfl
  | requestRevalidate peer now => exact off_requestWake fun _ => .inl rfl
  | requestEarlyWake peer now => exact off_requestWake fun _ => .inr rfl
  | removePeer peer => exact off_removePeer

end

theorem OffTick.window {k' : Knobs} (h : Window ep p) (ho : OffTick k k' ep p q) : Window ep q := by
  cases ho with
  | ack _ hs =>
    cases hs with
    | untouched => exact h
    | late _ => exact h.lateAcked
    | acked hi _ _ => exact h.acked hi
  | hardFail _ hi => exact h.sendHardFailed hi
  | woken _ hrest hq => exact h.hinted hrest hq
  | retuned => exact h.retuned
  | period _ _ => exact h

/-! ## The window of every peer, along every run -/

structure Pinned (m : Nat) (p : PeerState) : Prop where
  good : p.lastGood = m
  stable : p.stable = m
  bad : p.firstBad = m + 1
  frozen : p.phase = .frozen
  quiet : Quiet p

def Windows (d : PathMtuDiscovery) : Prop :=
  match d.pinned with
  | some m => 576 ≤ m ∧ m ≤ 1500 ∧ ∀ ep p, d.peers.lookup ep = some p → Pinned m p
  | none => ∀ ep p, d.peers.lookup ep = some p → Window ep p

section
variable {d d' : PathMtuDiscovery}

theorem windows_of_none (h : d.pinned = none) : Windows d ↔ ∀ ep p, d.peers.lookup ep = some p → Window ep p := by
  unfold Windows
  rw [h]

theorem Windows.off (h : Windows d) (ho : Off d d') : Windows d' := by
  unfold Windows at h ⊢
  rw [ho.pinned]
  split at h
  · rename_i hpin
    refine ⟨h.1, h.2.1, fun ep q hl => ?_⟩
    obtain ⟨p, hp, hsame⟩ := ho.peer ep q hl
    rw [hpin] at hsame
    cases hsame
    exact h.2.2 ep q hp
  rename_i hpin
  intro ep q hl
  obtain ⟨p, hp, hs⟩ := ho.peer ep q hl
  rw [hpin] at hs
  exact OffTick.window (h ep p hp) hs

theorem Windows.onTick (h : Windows d) {inputs : List PeerTickInput} {order : IterOrder} :
    Windows (d.onTick now inputs order).1 := by
  cases hpin : d.pinned with
  | some m =>
    simp only [PathMtuDiscovery.onTick, hpin, Option.isSome_some, if_true]
    exact h
  | none =>
    obtain ⟨hpin', _, hpeer⟩ := onTick_spec d hpin now inputs order
    rw [windows_of_none hpin] at h
    rw [windows_of_none hpin']
    intro ep q hl
    obtain ⟨p, ha, hs⟩ := (hpeer ep).2 q hl
    rcases ha with ha | ⟨_, _, rfl⟩
    · exact (h ep p ha).steps hs
    exact (window_new).steps hs

theorem Windows.setPinned (pathMtu : Option Nat) : Windows (d.setPinned pathMtu now) := by
  cases pathMtu with
  | some m =>
    refine ⟨le_clampSize, clampSize_le, fun ep q hl => ?_⟩
    unfold PathMtuDiscovery.setPinned at hl
    rw [HashMap.lookup_mapVals] at hl
    obtain ⟨p, _, rfl⟩ := Option.map_eq_some_iff.mp hl
    have hbad : min (clampSize m + 1) firstBadSentinel = clampSize m + 1 :=
      min_eq_left (Nat.succ_le_succ clampSize_le)
    exact ⟨rfl, rfl, hbad, rfl, rfl, rfl⟩
  | none =>
    intro ep q hl
    unfold PathMtuDiscovery.setPinned at hl
    rw [HashMap.lookup_mapVals] at hl
    obtain ⟨p, _, rfl⟩ := Option.map_eq_some_iff.mp hl
    exact window_new

theorem Windows.step (h : Windows d) (op : Op) : Windows (step d op).1 := by
  cases op with
  | onTick now inputs order => exact h.onTick
  | setPinned pathMtu now => exact .setPinned pathMtu
  | _ => exact h.off (off_step d (fun _ _ _ => Op.noConfusion) fun _ _ => Op.noConfusion)

end

theorem windows_new : Windows .new := by
  intro ep p h
  cases h

/-- In every reachable state the window of every peer and the size of its probe are within bounds,
and a peer at rest has no probe. -/
theorem windows_always (ops : List Op) (i : Nat) : ∀ ep p, (Machine.stateAt step .new ops i).peers.lookup ep = some p
    → 576 ≤ p.lastGood ∧ p.lastGood ≤ p.stable ∧ p.stable ≤ 1500 ∧ p.lastGood < p.firstBad ∧ p.firstBad ≤ 1501 ∧
    (∀ inf ∈ p.inflight, 576 ≤ inf.size ∧ inf.size ≤ 1500) ∧ (∀ g ∈ p.grace, 576 ≤ g.size ∧ g.size ≤ 1500) ∧
    (p.phase = .plateau ∨ p.phase = .frozen → p.inflight = none ∧ p.grace = none) := by
  intro ep p hl
  have h : Windows (Machine.stateAt step .new ops i) :=
    Machine.invariant_all windows_new (fun _ op h => Windows.step h op) i
  unfold Windows at h
  split at h
  · obtain ⟨hlo, hhi, hall⟩ := h
    obtain ⟨hg, hs, hb, _, hq⟩ := hall ep p hl
    refine ⟨by omega, by omega, by omega, by omega, by omega, ?_, ?_, fun _ => hq⟩
    · intro inf hi; rw [hq.1] at hi; cases hi
    intro g hi; rw [hq.2] at hi; cases hi
  have hw := h ep p hl
  exact ⟨hw.min_le, hw.le_stable, hw.stable_le, hw.lt_bad, hw.bad_le, fun inf hi => hw.inflight_size hi,
    fun g hg => (hw.grace g hg).2, hw.quiet_of_rest⟩

/-! A peer on its first upward search: the second tick has sent a probe of 1252 bytes. -/

def remoteA : SocketAddr := .v4 0xC6336401 7000

def input (ep : SocketAddr) : PeerTickInput := ⟨ep, ⟨false, false, false⟩, -1⟩

def firstSearch : List Op := [.onTick 0 [input remoteA] .asStored, .onTick (secs 60) [input remoteA] .asStored]

def raisingPeer : PeerState :=
  { PeerState.new PathMtuDiscovery.new.knobs 0 with
    phase := .raise
    searchGen := 2
    inflight := some ⟨1, 1252, secs 60 + millis 500, 3⟩
    probesUsed := 1 }

theorem raising_peer_in_window : (Machine.stateAt step .new firstSearch 2).peers.lookup remoteA = some raisingPeer ∧
    raisingPeer.lastGood < raisingPeer.firstBad ∧
    (∀ inf ∈ raisingPeer.inflight, 576 ≤ inf.size ∧ inf.size ≤ 1500) := by
  have hl : (Machine.stateAt step .new firstSearch 2).peers.lookup remoteA = some raisingPeer := by decide +kernel
  obtain ⟨_, _, _, hlt, _, hinf, _, _⟩ := windows_always firstSearch 2 remoteA raisingPeer hl
  exact ⟨hl, hlt, hinf⟩

/-! ## A pinned size -/

variable {d : PathMtuDiscovery}

def Fixed (d : PathMtuDiscovery) : Prop := ∀ m, d.pinned = some m → d.minPathMtu = m

theorem Fixed.step (h : Fixed d) (op : Op) : Fixed (step d op).1 := by
  intro m hm
  cases op with
  | onTick now inputs order =>
    cases hpin : d.pinned with
    | none => cases (onTick_spec d hpin now inputs order).1.symm.trans hm
    | some n =>
      simp only [Pmtud.step, PathMtuDiscovery.onTick, hpin, Option.isSome_some, if_true] at hm ⊢
      exact h m (hpin.trans hm)
  | setPinned pathMtu now =>
    cases pathMtu with
    | none => cases hm
    | some n => exact Option.some.inj hm
  | removePeer peer =>
    have hd := off_removePeer.pinned.symm.trans hm
    simp only [Pmtud.step, PathMtuDiscovery.removePeer, PathMtuDiscovery.recalcMin, hd]
    split
    · rfl
    exact h m hd
  | _ =>
    have hd := (off_step d (fun _ _ _ => Op.noConfusion) fun _ _ => Op.noConfusion).pinned.symm.trans hm
    simp only [Pmtud.step, PathMtuDiscovery.onAck, PathMtuDiscovery.onSendHardFail, PathMtuDiscovery.applyTuning,
      PathMtuDiscovery.setRaisePeriod, PathMtuDiscovery.requestRevalidate, PathMtuDiscovery.requestEarlyWake,
      PathMtuDiscovery.requestWake, hd, Option.isSome_some, if_true]
    exact h m hd

/-- Under a pin every peer has the pinned size and no probe is sent. -/
theorem pinned_fixes_size (ops : List Op) (i : Nat) :
    let d := Machine.stateAt step .new ops i
    d.pinned = none ∨ ∃ m, d.pinned = some m ∧ 576 ≤ m ∧ m ≤ 1500 ∧ d.minMtu = m ∧
      (∀ peer, d.udpPayloadBudget peer = m - 28) ∧ (∀ ep p, d.peers.lookup ep = some p → p.inflight = none) ∧
      ∀ op, (step d op).2 = [] := by
  intro d
  have hwin : Windows d := Machine.invariant_all windows_new (fun _ op h => h.step op) i
  have hmin : Fixed d := Machine.invariant_all (by intro m hm; cases hm) (fun _ op h => h.step op) i
  cases hpin : d.pinned with
  | none => exact .inl rfl
  | some m =>
    unfold Windows at hwin
    rw [hpin] at hwin
    obtain ⟨hlo, hhi, hpeers⟩ := hwin
    refine .inr ⟨m, rfl, hlo, hhi, hmin m hpin, fun peer => ?_, fun ep p hp => (hpeers ep p hp).quiet.1, fun op => ?_⟩
    · unfold PathMtuDiscovery.udpPayloadBudget
      cases hp : d.peers.lookup peer with
      | none => exact congrArg (· - 28) (hmin m hpin)
      | some p => exact congrArg (· - 28) (hpeers peer p hp).good
    cases op with
    | onTick now inputs order => simp only [step, PathMtuDiscovery.onTick, hpin, Option.isSome_some, if_true]
    | _ => rfl

end ConnectUnit.Pmtud
