import ConnectUnit.PmtudSound

/-!
# The cached minimum

The smallest proven MTU of all peers is kept beside the map and refreshed by hand.
-/

open Machine (Each foldl_rel stateAt)

namespace ConnectUnit.Pmtud

variable {eps : List SocketAddr} {peer : SocketAddr} {d : PathMtuDiscovery}

structure Tight (d : PathMtuDiscovery) : Prop where
  lower : d.pinned = none → ∀ ep p, d.peers.lookup ep = some p → d.minPathMtu ≤ p.lastGood
  empty : d.pinned = none → (∀ ep, d.peers.lookup ep = none) → d.minPathMtu = 1220

structure SameGoods (d d' : PathMtuDiscovery) : Prop where
  pinned : d'.pinned = d.pinned
  minimum : d'.minPathMtu = d.minPathMtu
  goods : ∀ ep, (d'.peers.lookup ep).map (·.lastGood) = (d.peers.lookup ep).map (·.lastGood)

section
variable {d d' d'' : PathMtuDiscovery} {ep : SocketAddr} {p q : PeerState} {k : Knobs} {now : Instant}

theorem Tight.of_same (h : Tight d) (hs : SameGoods d d') : Tight d' where
  lower := by
    intro hpin ep p hp
    rw [hs.pinned] at hpin
    have hg := hs.goods ep
    rw [hp] at hg
    obtain ⟨q, hq, hql⟩ := Option.map_eq_some_iff.mp hg.symm
    have hle := h.lower hpin ep q hq
    rw [hs.minimum]
    exact le_of_le_of_eq hle hql
  empty := by
    intro hpin hnone
    rw [hs.pinned] at hpin
    rw [hs.minimum]
    refine h.empty hpin fun ep => ?_
    have hg := hs.goods ep
    rw [hnone ep] at hg
    exact Option.map_eq_none_iff.mp hg.symm

theorem SameGoods.refl (d : PathMtuDiscovery) : SameGoods d d := ⟨rfl, rfl, fun _ => rfl⟩

theorem SameGoods.trans (h : SameGoods d d') (h' : SameGoods d' d'') : SameGoods d d'' :=
  ⟨h'.pinned.trans h.pinned, h'.minimum.trans h.minimum, fun ep => (h'.goods ep).trans (h.goods ep)⟩

theorem SameGoods.insert (hp : d.peers.lookup ep = some p) (hg : q.lastGood = p.lastGood)
    (hpin : d'.pinned = d.pinned) (hmin : d'.minPathMtu = d.minPathMtu) (hq : d'.peers = d.peers.insert ep q) :
    SameGoods d d' := by
  refine ⟨hpin, hmin, fun ep' => ?_⟩
  rw [hq, HashMap.lookup_insert_eq]
  split
  · rename_i he
    rw [he, hp, Option.map_some, Option.map_some, hg]
  rfl

theorem Tight.recalcMin (d : PathMtuDiscovery) : Tight d.recalcMin where
  lower := by
    intro hpin ep p hp
    replace hpin : d.pinned = none := hpin
    replace hp : d.peers.lookup ep = some p := hp
    have hmem : p.lastGood ∈ d.peers.entries.map (·.2.lastGood) :=
      List.mem_map.mpr ⟨⟨ep, p⟩, (HashMap.lookup_eq_some_iff _).mp hp, rfl⟩
    simp only [PathMtuDiscovery.recalcMin, hpin]
    cases hm : (d.peers.entries.map (·.2.lastGood)).min? with
    | none => rw [List.min?_eq_none_iff.mp hm] at hmem; cases hmem
    | some m => exact (List.min?_eq_some_iff.mp hm).2 _ hmem
  empty := by
    intro hpin hnone
    replace hpin : d.pinned = none := hpin
    have hnil : d.peers.entries = [] := by
      refine List.eq_nil_iff_forall_not_mem.mpr fun e he => ?_
      have := (HashMap.lookup_eq_some_iff d.peers).mpr he
      rw [show d.peers.lookup e.1 = none from hnone e.1] at this
      cases this
    simp only [PathMtuDiscovery.recalcMin, hpin, hnil]
    rfl

/-! ## Functions that leave the proven MTU alone -/

theorem enterPlateau_lastGood : (p.enterPlateau k now).lastGood = p.lastGood := by
  obtain ⟨_, _, _, heq, _⟩ := enterPlateau_spec p k now
  rw [heq]

theorem finishDownsearchPlateau_lastGood : (p.finishDownsearchPlateau k now).lastGood = p.lastGood := by
  unfold PeerState.finishDownsearchPlateau
  rw [enterPlateau_lastGood]
  split
  · rfl
  rfl

theorem closeOrFreeze_lastGood : (p.closeOrFreeze k now).lastGood = p.lastGood := by
  unfold PeerState.closeOrFreeze PeerState.maybeBudgetFreeze
  split
  · split
    · exact finishDownsearchPlateau_lastGood
    · exact enterPlateau_lastGood
  split
  · rfl
  split
  · rfl
  rfl

theorem confirmedFail_lastGood {size : Nat} (h : p.phase ≠ .recheck) :
    (p.confirmedFail k now ep size).lastGood = p.lastGood := by
  unfold PeerState.confirmedFail
  cases hp : p.phase with
  | raise | binary | downSearch => exact closeOrFreeze_lastGood
  | revalidate =>
    dsimp only
    split
    · rfl
    rfl
  | recheck => exact absurd hp h
  | plateau | frozen => rfl

theorem timedOut_lastGood {id : UInt32} {inf : Inflight} : (p.timedOut k now ep id inf).1.lastGood = p.lastGood := by
  unfold PeerState.timedOut
  dsimp only
  split
  · split
    · split
      · rfl
      · rfl
    · split
      · rfl
      · rfl
  split
  · rfl
  rename_i hp
  exact confirmedFail_lastGood fun hr => hp (.inr hr)

theorem startPhase_lastGood : (p.startPhase k now).lastGood = p.lastGood := by
  unfold PeerState.startPhase
  repeat' split
  all_goals rfl

theorem NextProbe.lastGood {r : PeerState × Option Nat} (h : NextProbe k now p r) : r.1.lastGood = p.lastGood := by
  cases h with
  | idle | frozen => rfl
  | closed _ _ => exact enterPlateau_lastGood
  | finished _ _ => exact finishDownsearchPlateau_lastGood
  | raise _ _ _ | bisect _ _ _ | validate _ _ => rfl

theorem retuned_lastGood : (p.retuned k now).lastGood = p.lastGood := by
  unfold PeerState.retuned
  dsimp only
  split
  · rfl
  rfl

/-! ## The stages of a tick -/

theorem Tight.heal (h : Tight d) (now : Instant) : Tight (d.healUnackedPrivateFloor now) := by
  unfold PathMtuDiscovery.healUnackedPrivateFloor
  dsimp only
  split
  · exact .recalcMin _
  exact h

theorem Tight.dropStale (h : Tight d) (inputs : List PeerTickInput) : Tight (d.dropStale inputs) := by
  unfold PathMtuDiscovery.dropStale
  dsimp only
  split
  · exact h
  exact .recalcMin _

theorem Tight.expireGrace (h : Tight d) : Tight (d.expireGrace now ep) := by
  cases hp : d.peers.lookup ep with
  | none => simp only [PathMtuDiscovery.expireGrace, hp]; exact h
  | some p =>
    unfold PathMtuDiscovery.expireGrace PathMtuDiscovery.applyTimeoutConfirmedFail
    simp only [hp, PathMtuDiscovery.setPeer, AList.lookup_insert]
    split
    · exact .recalcMin _
    rename_i hr
    have hg : (PeerState.confirmedFail { p with grace := none } d.knobs now ep
        ((p.grace.map (·.size)).getD minMtuBound)).lastGood = p.lastGood := confirmedFail_lastGood hr
    exact h.of_same (.insert hp hg rfl rfl (AList.insert_insert d.peers))

theorem onTimeout_sameGoods (d : PathMtuDiscovery) (ep : SocketAddr) : SameGoods d (d.onTimeout ep now).1 := by
  unfold PathMtuDiscovery.onTimeout
  split
  · exact .refl d
  rename_i p hp
  split
  · exact .refl d
  dsimp only
  split
  · exact .insert hp timedOut_lastGood rfl rfl rfl
  exact .insert hp timedOut_lastGood rfl rfl rfl

theorem Tight.expireGraces (h : Tight d) (now : Instant) (eps : List SocketAddr) :
    Tight (eps.foldl (fun d ep => d.expireGrace now ep) d) :=
  foldl_rel (R := fun d d' => Tight d → Tight d') (fun _ => id) (fun _ _ _ f g => g ∘ f)
    (fun _ _ h => Tight.expireGrace h) eps d h

theorem onTimeouts_sameGoods (d : PathMtuDiscovery) (now : Instant) (eps : List SocketAddr) :
    SameGoods d (PathMtuDiscovery.eachPeer (fun d ep => d.onTimeout ep now) d eps).1 := by
  rw [eachPeer_fst]
  exact foldl_rel .refl (fun _ _ _ => .trans) (fun d ep => onTimeout_sameGoods d ep) eps d

theorem startPhase_sameGoods (d : PathMtuDiscovery) (ep : SocketAddr) : SameGoods d (d.startPhase now ep) := by
  unfold PathMtuDiscovery.startPhase
  split
  · exact .refl d
  rename_i p hp; exact .insert hp startPhase_lastGood rfl rfl rfl

theorem startPhases_sameGoods (d : PathMtuDiscovery) (now : Instant) (eps : List SocketAddr) :
    SameGoods d (eps.foldl (fun d ep => d.startPhase now ep) d) :=
  foldl_rel .refl (fun _ _ _ => .trans) (fun d ep => startPhase_sameGoods d ep) eps d

theorem issueProbe_sameGoods (d : PathMtuDiscovery) (ep : SocketAddr) : SameGoods d (d.issueProbe ep now).1 := by
  unfold PathMtuDiscovery.issueProbe
  split
  · exact .refl d
  rename_i p hp
  have hg := (nextProbe_spec p d.knobs now).lastGood
  dsimp only
  split
  · rename_i heq; rw [heq] at hg; exact .insert hp hg rfl rfl rfl
  rename_i heq
  rw [heq] at hg
  exact .insert hp (show (PeerState.beginProbe _ _ _ _ _).lastGood = _ from hg) rfl rfl rfl

theorem issueUpTo_sameGoods {cap : Nat} : SameGoods d (PathMtuDiscovery.issueUpTo now d cap eps).1 := by
  exact issueUpTo_rel d (R := fun d _ d' => SameGoods d d') .refl (fun _ _ _ _ _ => .trans) now
    issueProbe_sameGoods cap eps

theorem issueProbes_sameGoods {already : Nat} : SameGoods d (d.issueProbes now eps already).1 := by
  unfold PathMtuDiscovery.issueProbes
  dsimp only
  split
  · exact .refl d
  exact (issueUpTo_sameGoods).trans ⟨rfl, rfl, fun _ => rfl⟩

theorem Tight.intake (h : Tight d) {input : PeerTickInput}
    (hin : d.peers.lookup input.addr = none → d.minPathMtu ≤ 1220) : Tight (d.intake now input) := by
  cases hp : d.peers.lookup input.addr with
  | some p =>
    refine h.of_same (.insert hp ?_ rfl rfl rfl)
    simp only [PathMtuDiscovery.ensurePeer, hp]
  | none =>
    have hlow := hin hp
    constructor
    · intro hpin ep q hq
      replace hpin : d.pinned = none := hpin
      replace hq : (d.peers.insert input.addr _).lookup ep = some q := hq
      rw [HashMap.lookup_insert_eq] at hq
      split at hq
      · cases hq
        simp only [PathMtuDiscovery.ensurePeer, hp, hpin]
        exact hlow
      · exact h.lower hpin ep q hq
    intro _ hnone
    have hself : (d.peers.insert input.addr _).lookup input.addr = none := hnone input.addr
    rw [AList.lookup_insert] at hself
    cases hself

theorem Tight.intakes (now : Instant) (inputs : List PeerTickInput) (h : Tight d)
    (hin : (∃ input ∈ inputs, d.peers.lookup input.addr = none) → d.minPathMtu ≤ 1220) :
    Tight (inputs.foldl (fun d input => d.intake now input) d) := by
  induction inputs generalizing d with
  | nil => exact h
  | cons input inputs ih =>
    refine ih (h.intake fun hn => hin ⟨input, List.mem_cons_self, hn⟩) fun hex => ?_
    obtain ⟨input', hmem, hn⟩ := hex
    refine hin ⟨input', List.mem_cons_of_mem input hmem, ?_⟩
    replace hn : (d.peers.insert input.addr _).lookup input'.addr = none := hn
    rw [HashMap.lookup_insert_eq] at hn
    split at hn
    · cases hn
    exact hn

/-! ## The minimum along a run -/

/-- A tick takes in a new peer only beside a tracked one that is at the default or below, or when
none of its peers is tracked. -/
def TakesInAtMin (d : PathMtuDiscovery) : Op → Prop
  | .onTick _ inputs _ => d.pinned = none → (∃ input ∈ inputs, d.peers.lookup input.addr = none) →
      (∃ input ∈ inputs, ∃ p, d.peers.lookup input.addr = some p ∧ p.lastGood ≤ 1220) ∨
        ∀ input ∈ inputs, d.peers.lookup input.addr = none
  | _ => True

theorem minimum_at_intake (h : Tight d) (hpin : d.pinned = none) {inputs : List PeerTickInput}
    (hmin : (∃ input ∈ inputs, ∃ p, d.peers.lookup input.addr = some p ∧ p.lastGood ≤ 1220) ∨
      ∀ input ∈ inputs, d.peers.lookup input.addr = none) :
    ((d.healUnackedPrivateFloor now).dropStale inputs).minPathMtu ≤ 1220 := by
  have ht := (h.heal now).dropStale inputs
  have hpin' : ((d.healUnackedPrivateFloor now).dropStale inputs).pinned = none := by
    rw [(dropStale_settings _ inputs).2, (heal_settings d now).2, hpin]
  have hl := fun ep => (dropStale_lookup (d.healUnackedPrivateFloor now) inputs ep)
  rcases hmin with ⟨input, hin, p, hp, hlow⟩ | hnone
  · have hq := hl input.addr
    rw [if_pos (List.mem_map_of_mem hin), heal_lookup, hp, Option.map_some] at hq
    refine le_trans (ht.lower hpin' _ _ hq) ?_
    split
    · exact le_refl _
    exact hlow
  refine le_of_eq (ht.empty hpin' fun ep => ?_)
  rw [hl ep]
  split
  · rename_i hact
    obtain ⟨input, hin, rfl⟩ := List.mem_map.mp hact
    rw [heal_lookup, hnone input hin]
    rfl
  · rfl

theorem Tight.onTick (h : Tight d) {inputs : List PeerTickInput} {order : IterOrder}
    (hok : TakesInAtMin d (.onTick now inputs order)) : Tight (d.onTick now inputs order).1 := by
  cases hpin : d.pinned with
  | some m =>
    simp only [PathMtuDiscovery.onTick, hpin, Option.isSome_some, if_true]
    exact h
  | none =>
    have hmin :
        (∃ input ∈ inputs, ((d.healUnackedPrivateFloor now).dropStale inputs).peers.lookup input.addr = none) →
        ((d.healUnackedPrivateFloor now).dropStale inputs).minPathMtu ≤ 1220 := by
      intro hex
      obtain ⟨input, hin, hn⟩ := hex
      refine minimum_at_intake h hpin (hok hpin ⟨input, hin, ?_⟩)
      rw [dropStale_lookup, if_pos (List.mem_map_of_mem hin), heal_lookup] at hn
      exact Option.map_eq_none_iff.mp hn
    have h₁ := (h.heal now).dropStale inputs
    unfold PathMtuDiscovery.onTick
    rw [hpin]
    simp only [Option.isSome_none, Bool.false_eq_true, if_false]
    have h₂ := h₁.intakes now inputs hmin
    generalize inputs.foldl (fun d input => d.intake now input)
      ((d.healUnackedPrivateFloor now).dropStale inputs) = d₂
      at h₂
    have h₃ := h₂.expireGraces now (order.arrange (d₂.graceExpired now))
    generalize (order.arrange (d₂.graceExpired now)).foldl (fun d ep => d.expireGrace now ep) d₂ = d₃ at h₃
    have h₄ := h₃.of_same (onTimeouts_sameGoods d₃ now (order.arrange (d₃.inflightExpired now)))
    have h₅ := h₄.of_same (startPhases_sameGoods _ now (inputs.map (·.addr)))
    exact h₅.of_same issueProbes_sameGoods

/-! ## The other operations -/

theorem Tight.onAck (h : Tight d) {peerAddr : SocketAddr} {size : Nat} {probeId searchGen : UInt32} :
    Tight (d.onAck peerAddr size probeId searchGen now).1 := by
  unfold PathMtuDiscovery.onAck
  split
  · exact h
  dsimp only
  split
  · exact h
  split
  · exact h
  split
  · exact .recalcMin _
  split
  · exact .recalcMin _
  exact h

theorem Tight.onSendHardFail (h : Tight d) {peerAddr : SocketAddr} {probeId : UInt32} :
    Tight (d.onSendHardFail peerAddr probeId now) := by
  unfold PathMtuDiscovery.onSendHardFail
  split
  · exact h
  split
  · exact h
  rename_i p hp
  split
  · exact h
  split
  · exact h
  split
  · exact .recalcMin _
  rename_i hph
  refine h.of_same (.insert hp ?_ rfl rfl rfl)
  unfold PeerState.sendHardFailed
  rw [if_neg hph]
  exact confirmedFail_lastGood fun hr => hph (.inr hr)

theorem Tight.requestWake (h : Tight d) {cooldown : Nat} {last : PeerState → Option Instant}
    {note : PeerState → PeerState}
    (hnote : ∀ p : PeerState, (note (p.woken now)).lastGood = p.lastGood) :
    Tight (d.requestWake cooldown last note peer now).1 := by
  unfold PathMtuDiscovery.requestWake
  split
  · exact h
  split
  · exact h
  rename_i p hp
  split
  · exact h
  split
  · exact h.of_same (.insert hp (hnote p) rfl rfl rfl)
  exact h

theorem Tight.setPinned (pathMtu : Option Nat) : Tight (d.setPinned pathMtu now) := by
  cases pathMtu with
  | some m => exact ⟨fun hpin => (nomatch hpin), fun hpin => (nomatch hpin)⟩
  | none =>
    refine ⟨fun _ ep q hl => ?_, fun _ _ => rfl⟩
    unfold PathMtuDiscovery.setPinned at hl
    rw [HashMap.lookup_mapVals] at hl
    obtain ⟨p, _, rfl⟩ := Option.map_eq_some_iff.mp hl
    exact le_refl _

theorem Tight.applyTuning (h : Tight d) {t : ClampedTuning} : Tight (d.applyTuning t now) := by
  unfold PathMtuDiscovery.applyTuning
  dsimp only
  split
  · exact ⟨h.lower, h.empty⟩
  refine h.of_same ⟨rfl, rfl, fun ep => ?_⟩
  rw [HashMap.lookup_mapVals, Option.map_map]
  exact Option.map_congr fun p _ => retuned_lastGood

theorem Tight.removePeer (h : Tight d) : Tight (d.removePeer peer) := by
  unfold PathMtuDiscovery.removePeer
  split
  · exact .recalcMin _
  exact h

theorem Tight.step (h : Tight d) (op : Op) (hok : TakesInAtMin d op) : Tight (step d op).1 := by
  cases op with
  | onTick now inputs order => exact h.onTick hok
  | onAck peerAddr size probeId searchGen now => exact h.onAck
  | onSendHardFail peerAddr probeId now => exact h.onSendHardFail
  | setPinned pathMtu now => exact .setPinned pathMtu
  | applyTuning t now => exact h.applyTuning
  | setRaisePeriod period => exact ⟨h.lower, h.empty⟩
  | requestRevalidate peer now => exact h.requestWake fun _ => rfl
  | requestEarlyWake peer now => exact h.requestWake fun _ => rfl
  | removePeer peer => exact h.removePeer

end

theorem tight_new : Tight .new := ⟨fun _ _ _ h => (by cases h), fun _ _ => rfl⟩

/-- The cached minimum, and so the payload derived from it, suits every tracked peer as long as new
peers are only taken in when it is no higher than the default. -/
theorem min_le_of_each (ops : List Op) (hok : Each step .new ops TakesInAtMin) (i : Nat)
    (hpin : (stateAt step .new ops i).pinned = none) (ep : SocketAddr) (p : PeerState)
    (hp : (stateAt step .new ops i).peers.lookup ep = some p) : (stateAt step .new ops i).minMtu ≤
    p.lastGood ∧ (stateAt step .new ops i).minMtu - PathMtuDiscovery.underlayIpv4UdpOverhead ≤
    (stateAt step .new ops i).udpPayloadBudget ep := by
  have h : Tight (stateAt step .new ops i) :=
    Machine.invariant tight_new (fun _ op hok h => Tight.step h op hok) hok i
  have hle := h.lower hpin ep p hp
  refine ⟨hle, ?_⟩
  unfold PathMtuDiscovery.udpPayloadBudget
  rw [hp]
  exact Nat.sub_le_sub_right hle _

def remoteB : SocketAddr := .v4 0xC6336402 7000

/-- A second peer joins while the first is at the default. -/
def joinAtDefault : List Op :=
  [.onTick 0 [input remoteA] .asStored, .onTick (secs 1) [input remoteA, input remoteB] .asStored]

theorem min_le_after_join : (stateAt step .new joinAtDefault 2).minMtu ≤
    (PeerState.new PathMtuDiscovery.new.knobs (secs 1)).lastGood := by
  have hp : (stateAt step .new joinAtDefault 2).peers.lookup remoteB =
      some (PeerState.new PathMtuDiscovery.new.knobs (secs 1)) := by decide +kernel
  refine (min_le_of_each joinAtDefault ?_ 2 (by decide +kernel) remoteB _ hp).1
  intro i op hop
  match i, hop with
  | 0, hop =>
    cases hop
    intro _ _
    exact .inr (fun _ _ => rfl)
  | 1, hop =>
    cases hop
    intro _ _
    exact .inl ⟨input remoteA, List.mem_cons_self, PeerState.new PathMtuDiscovery.new.knobs 0, by decide +kernel,
      le_refl _⟩

/-- A second peer joins after a probe of 1252 bytes has passed to the first. -/
def joinAboveDefault : List Op :=
  firstSearch ++ [.onAck remoteA 1252 1 2 (secs 60 + 1), .onTick (secs 61) [input remoteA, input remoteB] .asStored]

theorem min_above_new_peer : (stateAt step .new joinAboveDefault 4).pinned = none ∧
    (stateAt step .new joinAboveDefault 4).minMtu = 1252 ∧
    ((stateAt step .new joinAboveDefault 4).peers.lookup remoteB).map (·.lastGood) = some 1220 := by
  decide +kernel

/-! ## What a route update sees -/

def PathMtuDiscovery.view (d : PathMtuDiscovery) : ConnectUnit.PathMtuDiscovery where
  peers := d.peers.mapWithKey fun _ p => ⟨p.lastGood⟩
  minPathMtu := d.minPathMtu
  pinned := d.pinned

theorem view_recalcMin : d.recalcMin.view = d.view.recalcMin := by
  have hgoods : d.peers.entries.map (·.2.lastGood) = d.view.peers.entries.map (·.2.lastGood) := by
    unfold PathMtuDiscovery.view HashMap.mapWithKey
    rw [List.map_map]
    rfl
  unfold PathMtuDiscovery.recalcMin ConnectUnit.PathMtuDiscovery.recalcMin
  rw [← hgoods]
  rfl

theorem view_removePeer : (d.removePeer peer).view = d.view.removePeer peer := by
  have hl : d.view.peers.lookup peer = (d.peers.lookup peer).map fun p => ⟨p.lastGood⟩ :=
    HashMap.lookup_mapWithKey d.peers _
  unfold PathMtuDiscovery.removePeer ConnectUnit.PathMtuDiscovery.removePeer
  rw [hl]
  cases d.peers.lookup peer with
  | none => rfl
  | some p =>
    simp only [Option.map_some]
    rw [view_recalcMin]
    unfold PathMtuDiscovery.view
    simp only [HashMap.mapWithKey_erase]

end ConnectUnit.Pmtud
