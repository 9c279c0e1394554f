import ConnectUnit.Healing
import ConnectUnit.InboundSound

/-!
# No heal is forgotten

Every address that is being healed has a ping of its heal under way, whatever the engine does in between, and each of
those pings expires 750 ms after it was noted.
-/

open Machine (run trace trace_invariant)
open List (append_nil mem_append mem_cons mem_filter mem_singleton not_mem_nil)

namespace ConnectUnit

open Outstanding

variable {vip : String} {p : PendingPing} {w : Sending} {i : SentPing}
variable {k : UInt64} {draws : List UInt64} {dest : SocketAddr} {timeoutMs : Nat} {now : Instant}

namespace PendingPing

variable (p : PendingPing)

def healVip : Option String :=
  match p.kind with
  | .heal vip _ => some vip
  | _ => none

theorem healVip_heal {ep : SocketAddr} (h : p.kind = .heal vip ep) : p.healVip = some vip := by
  unfold healVip
  rw [h]

theorem heal_of_healVip (h : p.healVip = some vip) : ∃ ep, p.kind = .heal vip ep := by
  unfold healVip at h
  split at h
  next ep hkind =>
    cases h
    exact ⟨ep, hkind⟩
  next => cases h

theorem healVip_user (h : p.kind = .user) : p.healVip = none := by
  unfold healVip
  rw [h]

theorem healVip_probe (h : p.kind = .probe) : p.healVip = none := by
  unfold healVip
  rw [h]

end PendingPing

namespace Inbound

variable {γ : Type} {s : Inbound γ}
variable {t : Inbound γ}

theorem healRemains_eq : s.healRemains vip = remains PendingPing.healVip s.pendingPings vip := by
  unfold healRemains remains PendingPing.healVip
  congr 1
  funext e
  cases e.2.kind <;> simp

theorem endHeal_heals : (s.endHeal vip).pendingPings = s.pendingPings ∧
    (s.endHeal vip).pendingHealVips = if remains PendingPing.healVip s.pendingPings vip then s.pendingHealVips else
    s.pendingHealVips.filter (· ≠ vip) := by
  unfold endHeal
  rw [healRemains_eq]
  split <;> exact ⟨rfl, rfl⟩

theorem handleHealSuccess_heals (s : Inbound γ) (vip : String) (endpoint : SocketAddr) (rttMs : Int) (now : Instant) :
    (s.handleHealSuccess vip endpoint rttMs now).pendingPings = s.pendingPings ∧
    (s.handleHealSuccess vip endpoint rttMs now).pendingHealVips = (s.endHeal vip).pendingHealVips := by
  unfold handleHealSuccess
  by_cases h : vip ∈ s.pendingHealVips
  · rw [if_neg (not_not.mpr h)]
    dsimp only
    split
    · exact ⟨(endHeal_heals).1, rfl⟩
    exact ⟨(endHeal_heals).1, rfl⟩
  -- `endHeal` is not reached, but it would leave out nothing.
  rw [if_pos h, (endHeal_heals).2]
  have hfilter : s.pendingHealVips.filter (· ≠ vip) = s.pendingHealVips :=
    List.filter_eq_self.mpr fun o ho => decide_eq_true (ne_of_mem_of_not_mem ho h)
  rw [hfilter, ite_self]
  exact ⟨rfl, rfl⟩

/-! ## A ping that goes -/

def Takes (s t : Inbound γ) : Prop :=
  (t.pendingPings = s.pendingPings ∧ t.pendingHealVips = s.pendingHealVips) ∨
    ∃ k p, s.pendingPings.lookup k = some p ∧ t.pendingPings = s.pendingPings.erase k ∧
      t.pendingHealVips = settled PendingPing.healVip t.pendingPings s.pendingHealVips p

def HealsBacked (s : Inbound γ) : Prop := Backed PendingPing.healVip s.pendingPings s.pendingHealVips

theorem Takes.backed (h : Takes s t) (hs : s.HealsBacked) : t.HealsBacked := by
  unfold HealsBacked
  rcases h with ⟨hp, hv⟩ | ⟨k, p, hk, hp, hv⟩
  · rw [hp, hv]
    exact hs
  rw [hv, hp]
  exact hs.settle hk

theorem Takes.lookup (h : Takes s t) (hk : t.pendingPings.lookup k = some p) : s.pendingPings.lookup k = some p := by
  rcases h with ⟨hp, -⟩ | ⟨k', p', -, hp, -⟩
  · rw [hp] at hk
    exact hk
  rw [hp, HashMap.lookup_erase_eq] at hk
  split at hk
  · cases hk
  exact hk

theorem takes_handlePongBody (s : Inbound γ) (body : Bytes) (a : Arrival) : Takes s (s.handlePongBody body a) := by
  have howd : ∀ (t : Inbound γ) (b : Bool) (f : RoutingTable → RoutingTable),
      (if b then t.onRouting f else t).pendingPings = t.pendingPings ∧
        (if b then t.onRouting f else t).pendingHealVips = t.pendingHealVips := by
    intro t b f
    cases b <;> exact ⟨rfl, rfl⟩
  unfold handlePongBody
  split
  · exact .inl ⟨rfl, rfl⟩
  dsimp only
  split
  · exact .inl ⟨rfl, rfl⟩
  next p hk =>
    split
    · exact .inl ⟨rfl, rfl⟩
    refine .inr ⟨_, p, hk, ?_⟩
    split
    next hkind =>
      obtain ⟨hpings, hvips⟩ := handleHealSuccess_heals _ _ _ _ _
      rw [hpings, hvips, settled_of_some (p.healVip_heal hkind), (endHeal_heals).2, (howd _ _ _).1, (howd _ _ _).2]
      exact ⟨rfl, rfl⟩
    next hkind =>
      rw [settled_of_none (p.healVip_user hkind)]
      exact howd _ _ _
    next hkind =>
      rw [settled_of_none (p.healVip_probe hkind)]
      exact howd _ _ _

end Inbound

/-! ## Pings that come -/

abbrev PingTable := HashMap UInt64 PendingPing

structure Sends (m m' : PingTable) (out : List SentPing) : Prop where
  kept : ∀ k p, m.lookup k = some p → m'.lookup k = some p
  sent : ∀ i ∈ out, m'.lookup i.id = some i.ping
  only : ∀ k p, m'.lookup k = some p → m.lookup k = some p ∨ ∃ i ∈ out, i.id = k ∧ i.ping = p

namespace Sends

variable {m m' m'' : PingTable} {out out' : List SentPing}

theorem refl (m : PingTable) : Sends m m [] where
  kept _ _ h := h
  sent _ h := absurd h not_mem_nil
  only _ _ h := .inl h

theorem trans (h : Sends m m' out) (h' : Sends m' m'' out') : Sends m m'' (out ++ out') where
  kept k p hk := h'.kept k p (h.kept k p hk)
  sent i hi := by
    rcases mem_append.mp hi with hi | hi
    · exact h'.kept _ _ (h.sent i hi)
    exact h'.sent i hi
  only k p hk := by
    rcases h'.only k p hk with hk | ⟨i, hi, hid⟩
    · rcases h.only k p hk with hk | ⟨i, hi, hid⟩
      · exact .inl hk
      · exact .inr ⟨i, List.mem_append_left _ hi, hid⟩
    · exact .inr ⟨i, List.mem_append_right _ hi, hid⟩

theorem insert {id : UInt64} (hid : m.lookup id = none) (p : PendingPing) (now : Instant) :
    Sends m (m.insert id p) [⟨id, p, now⟩] where
  kept k q hk := by
    have hne : k ≠ id := by
      rintro rfl
      rw [hid] at hk
      cases hk
    rw [HashMap.lookup_insert_eq, if_neg hne]
    exact hk
  sent i hi := by
    rw [mem_singleton.mp hi, HashMap.lookup_insert_eq, if_pos rfl]
  only k q hk := by
    rw [HashMap.lookup_insert_eq] at hk
    split at hk
    next h =>
      cases hk
      exact .inr ⟨_, List.mem_singleton_self _, h.symm, rfl⟩
    next => exact .inl hk

theorem insert_erase {id : UInt64} (hid : m.lookup id = none) (p : PendingPing) :
    Sends m ((m.insert id p).erase id) [] := by
  have heq : ∀ k, ((m.insert id p).erase id).lookup k = m.lookup k := by
    intro k
    rw [HashMap.lookup_erase_eq, HashMap.lookup_insert_eq]
    by_cases h : k = id
    · rw [if_pos h, h, hid]
    rw [if_neg h, if_neg h]
  exact ⟨fun k q hk => (heq k).trans hk, fun i hi => absurd hi not_mem_nil,
    fun k q hk => .inl ((heq k).symm.trans hk)⟩

end Sends

namespace PingId

theorem toNat_next {id : PingId} : id.next.val.toNat = id.val.toNat % (2 ^ 64 - 1) + 1 := by
  have hpos : id.val.toNat ≠ 0 := fun h => id.2 (UInt64.toNat_inj.mp h)
  have hlt := id.val.toNat_lt
  have hadd : (id.val + 1).toNat = (id.val.toNat + 1) % 2 ^ 64 := UInt64.toNat_add _ _
  change (if id.val + 1 ≤ 1 then 1 else id.val + 1).toNat = _
  split
  next h =>
    rw [UInt64.le_iff_toNat_le, hadd] at h
    change _ ≤ 1 at h
    change 1 = _
    omega
  next h =>
    rw [UInt64.le_iff_toNat_le, hadd] at h
    change ¬ _ ≤ 1 at h
    rw [hadd]
    omega

theorem toNat_iterate_next {id : PingId} {i : Nat} :
    (PingId.next^[i] id).val.toNat = (id.val.toNat - 1 + i) % (2 ^ 64 - 1) + 1 := by
  have hpos : id.val.toNat ≠ 0 := fun h => id.2 (UInt64.toNat_inj.mp h)
  have hlt := id.val.toNat_lt
  induction i with
  | zero =>
    change id.val.toNat = _
    omega
  | succ i ih =>
    rw [Function.iterate_succ_apply', toNat_next, ih]
    omega

end PingId

namespace Prober

section
variable {γ : Type}
variable {s : Prober γ}

theorem allocatePingId_isSome (h : s.pings.size < 2 ^ 64 - 1) : (s.allocatePingId draws).isSome = true := by
  unfold allocatePingId
  split
  next => rfl
  next =>
    rw [Option.isSome_map]
    refine firstFree_isSome fun i j hi hj hij => ?_
    have hnat := congrArg UInt64.toNat hij
    rw [PingId.toNat_iterate_next, PingId.toNat_iterate_next] at hnat
    omega

theorem allocatePingId_free {r : UInt64 × PingId}
    (h : s.allocatePingId draws = some r) : s.pings.lookup r.1 = none := by
  unfold allocatePingId at h
  split at h
  next id hfind =>
    cases h
    have hok := List.find?_some hfind
    rw [Bool.and_eq_true] at hok
    exact Option.isNone_iff_eq_none.mp hok.2
  next =>
    obtain ⟨r', hr', rfl⟩ := Option.map_eq_some_iff.mp h
    exact Option.not_isSome_iff_eq_none.mp (Bool.eq_false_iff.mp (firstFree_free hr'))

theorem tryPing_sends : Sends s.pings (s.tryPing p w).1.pings (s.tryPing p w).2 := by
  unfold tryPing
  split
  next => exact .refl _
  next hid =>
    dsimp only
    split
    · exact .insert (allocatePingId_free hid) p w.now
    exact .insert_erase (allocatePingId_free hid) p

theorem tryPing_vips : (s.tryPing p w).1.vips = s.vips := by
  unfold tryPing
  split
  · rfl
  dsimp only
  split <;> rfl

theorem of_mem_tryPing (hi : i ∈ (s.tryPing p w).2) : i.ping = p ∧ i.sentAt = w.now := by
  unfold tryPing at hi
  split at hi
  · cases hi
  dsimp only at hi
  split at hi
  · rw [mem_singleton.mp hi]
    exact ⟨rfl, rfl⟩
  cases hi

theorem pingPeer_sends : Sends s.pings (s.pingPeer dest timeoutMs w).1.pings (s.pingPeer dest timeoutMs w).2 := by
  unfold pingPeer
  split
  next => exact .refl _
  next hid =>
    dsimp only
    split
    · exact .refl _
    exact .insert (allocatePingId_free hid) _ w.now

theorem of_mem_pingPeer (hi : i ∈ (s.pingPeer dest timeoutMs w).2) : i.ping.healVip = none := by
  unfold pingPeer at hi
  split at hi
  · cases hi
  dsimp only at hi
  split at hi
  · cases hi
  rw [mem_singleton.mp hi]
  rfl

theorem pingPeer_vips : (s.pingPeer dest timeoutMs w).1.vips = s.vips := by
  unfold pingPeer
  split
  · rfl
  dsimp only
  split <;> rfl

theorem sweep {α : Type} {f : Prober γ → α → Prober γ × List SentPing} {Q : SentPing → Prop}
    (hf : ∀ s a, Sends s.pings (f s a).1.pings (f s a).2 ∧ (f s a).1.vips = s.vips ∧ ∀ i ∈ (f s a).2, Q i)
    {as : List α} : Sends s.pings (run f s as).pings (trace f s as) ∧
    (run f s as).vips = s.vips ∧ ∀ i ∈ trace f s as, Q i := by
  let I (t : Prober γ) (log : List SentPing) : Prop := Sends s.pings t.pings log ∧ t.vips = s.vips ∧ ∀ i ∈ log, Q i
  have hstep : ∀ t log a, True → I t log → I (f t a).1 (log ++ (f t a).2) := by
    rintro t log a - ⟨hsends, hvips, hq⟩
    obtain ⟨hsends', hvips', hq'⟩ := hf t a
    refine ⟨hsends.trans hsends', hvips'.trans hvips, fun i hi => ?_⟩
    rcases mem_append.mp hi with hi | hi
    · exact hq i hi
    exact hq' i hi
  exact trace_invariant hstep ⟨.refl _, rfl, fun i hi => absurd hi not_mem_nil⟩ fun _ _ _ => trivial

theorem sweep_healPing (s : Prober γ) (vip : String) (send : Nat → Sending) (cs : List (SocketAddr × Nat)) : Sends
    s.pings (run (healPing vip send) s cs).pings (trace (healPing vip send) s cs) ∧
    (run (healPing vip send) s cs).vips = s.vips ∧ ∀ i ∈ trace (healPing vip send) s cs,
    i.ping.healVip = some vip ∧ i.ping.deadline = i.sentAt + millis 750 := by
  refine sweep (fun s c => ⟨tryPing_sends, tryPing_vips, fun i hi => ?_⟩)
  obtain ⟨hping, hat⟩ := of_mem_tryPing hi
  rw [hping, hat]
  exact ⟨rfl, rfl⟩

theorem sweep_probePing (s : Prober γ) (now : Instant) (epochMs : Nat) (send : Nat → Sending)
    (cs : List (SocketAddr × Nat)) : Sends s.pings (run (probePing now epochMs send) s cs).pings
    (trace (probePing now epochMs send) s cs) ∧ (run (probePing now epochMs send) s cs).vips = s.vips
    ∧ ∀ i ∈ trace (probePing now epochMs send) s cs, i.ping.healVip = none := by
  refine sweep (fun s c => ⟨tryPing_sends, tryPing_vips, fun i hi => ?_⟩)
  rw [(of_mem_tryPing hi).1]
  rfl

end

end Prober

/-! ## Every heal has a ping -/

def SentPing.Timed (i : SentPing) : Prop := ∀ vip, i.ping.healVip = some vip → i.ping.deadline = i.sentAt + millis 750

namespace Prober

structure Accounted {γ : Type} (s : Prober γ) (log : List SentPing) : Prop where
  backed : s.inbound.HealsBacked
  noted : ∀ k p vip, s.pings.lookup k = some p → p.healVip = some vip → ∃ i ∈ log, i.id = k ∧ i.ping = p
  timed : ∀ i ∈ log, i.Timed

section
variable {γ : Type} {s t : Prober γ} {log out : List SentPing}
variable {r : Prober γ × List SocketAddr}

theorem Accounted.sends (h : Accounted s log) (hm : Sends s.pings t.pings out) (htimed : ∀ i ∈ out, i.Timed)
    (hvips : ∀ vip ∈ t.vips, vip ∈ s.vips ∨ ∃ i ∈ out, i.ping.healVip = some vip) : Accounted t (log ++ out) where
  backed vip hvip := by
    rcases hvips vip hvip with hvip | ⟨i, hi, hi'⟩
    · exact h.backed.grow hm.kept vip hvip
    exact ⟨i.id, i.ping, hm.sent i hi, hi'⟩
  noted k p vip hk hp := by
    rcases hm.only k p hk with hk | ⟨i, hi, hi'⟩
    · obtain ⟨i, hi, hi'⟩ := h.noted k p vip hk hp
      exact ⟨i, List.mem_append_left _ hi, hi'⟩
    exact ⟨i, List.mem_append_right _ hi, hi'⟩
  timed i hi := by
    rcases mem_append.mp hi with hi | hi
    · exact h.timed i hi
    exact htimed i hi

theorem Accounted.takes (h : Accounted s log) (ht : Inbound.Takes s.inbound t.inbound) : Accounted t log where
  backed := ht.backed h.backed
  noted k p vip hk hp := h.noted k p vip (ht.lookup hk) hp
  timed := h.timed

theorem Accounted.drops (h : Accounted s log) (hm : t.pings = s.pings) (hvips : ∀ vip ∈ t.vips, vip ∈ s.vips) :
    Accounted t log := by
  have hs : Sends s.pings t.pings [] := by
    rw [hm]
    exact .refl _
  have hsent := h.sends hs (fun i hi => absurd hi not_mem_nil) fun vip hvip => .inl (hvips vip hvip)
  rwa [append_nil] at hsent

theorem mem_of_added_dropped {vip' : String} {vips : List String} (h : vip' ∈ (vip :: vips).filter (· ≠ vip)) :
    vip' ∈ vips := by
  obtain ⟨hmem, hne⟩ := mem_filter.mp h
  exact (mem_cons.mp hmem).resolve_left (of_decide_eq_true hne)

theorem Accounted.pingCandidates (h : Accounted s log) {a : HealAttempt} {candidates : List SocketAddr}
    : Accounted ((s.addHeal vip).pingCandidates vip a candidates).1
    (log ++ ((s.addHeal vip).pingCandidates vip a candidates).2) := by
  obtain ⟨hsends, hvips, hheal⟩ := sweep_healPing (s.addHeal vip) vip a.send (candidates.take 3).zipIdx
  unfold Prober.pingCandidates
  dsimp only
  split
  next hnone =>
    rw [List.isEmpty_iff.mp hnone] at hsends
    refine h.sends hsends (fun i hi => absurd hi not_mem_nil) fun vip' hvip' => .inl ?_
    change vip' ∈ (run (healPing vip a.send) (s.addHeal vip) (candidates.take 3).zipIdx).vips.filter
      (· ≠ vip) at hvip'
    rw [hvips] at hvip'
    exact mem_of_added_dropped hvip'
  next hsome =>
    refine h.sends hsends (fun i hi _ _ => (hheal i hi).2) fun vip' hvip' => ?_
    rw [hvips] at hvip'
    rcases mem_cons.mp hvip' with rfl | hvip'
    · obtain ⟨i, hi⟩ := List.exists_mem_of_ne_nil _ fun hnil => hsome (List.isEmpty_iff.mpr hnil)
      exact .inr ⟨i, hi, (hheal i hi).1⟩
    exact .inl hvip'

theorem Accounted.spawnPredictiveHeal (h : Accounted s log) (vip : String) (a : HealAttempt) :
    Accounted (s.spawnPredictiveHeal vip a).1 (log ++ (s.spawnPredictiveHeal vip a).2) := by
  have hsame : Accounted s (log ++ []) := by
    rw [append_nil]
    exact h
  have hback : Accounted ((s.addHeal vip).dropHeal vip) (log ++ []) :=
    hsame.drops rfl fun vip' hvip' => mem_of_added_dropped hvip'
  unfold Prober.spawnPredictiveHeal
  split
  · exact hsame
  split
  · exact hsame
  split
  · exact hsame
  split
  · exact hsame
  dsimp only
  split
  · exact hback
  split
  · exact hback
  exact h.pingCandidates

/-! ## Expiry -/

theorem takes_expirePing (now : Instant) (r : Prober γ × List SocketAddr) (k : UInt64) :
    Inbound.Takes r.1.inbound (expirePing now r k).1.inbound := by
  unfold expirePing
  split
  next => exact .inl ⟨rfl, rfl⟩
  next p hk =>
    dsimp only
    refine .inr ⟨k, p, hk, ?_⟩
    split
    next hkind =>
      rw [settled_of_none (p.healVip_user hkind)]
      exact ⟨rfl, rfl⟩
    next hkind =>
      rw [settled_of_some (p.healVip_heal hkind)]
      split
      next hr => exact ⟨rfl, (if_pos ((Inbound.healRemains_eq).symm.trans hr)).symm⟩
      next hr => exact ⟨rfl, (if_neg fun hr' => hr ((Inbound.healRemains_eq).trans hr')).symm⟩
    next hkind =>
      rw [settled_of_none (p.healVip_probe hkind)]
      exact ⟨rfl, rfl⟩

theorem expirePing_gone : (expirePing now r k).1.pings.lookup k = none := by
  have hgone : (r.1.dropPing k).pings.lookup k = none := AList.lookup_erase _ _
  unfold expirePing
  split
  next hk => exact hk
  next =>
    dsimp only
    split
    · exact hgone
    · split <;> exact hgone
    exact hgone

theorem Accounted.expire (now : Instant) (ks : List UInt64) (h : Accounted r.1 log) :
    Accounted (ks.foldl (expirePing now) r).1 log ∧ ∀ k p, (ks.foldl (expirePing now) r).1.pings.lookup k = some p →
    r.1.pings.lookup k = some p ∧ k ∉ ks := by
  induction ks generalizing r with
  | nil => exact ⟨h, fun k p hk => ⟨hk, not_mem_nil⟩⟩
  | cons k ks ih =>
    have htakes := takes_expirePing now r k
    obtain ⟨hacc, hleft⟩ := ih (h.takes htakes)
    refine ⟨hacc, fun k' p hk' => ?_⟩
    obtain ⟨hk', hnot⟩ := hleft k' p hk'
    refine ⟨htakes.lookup hk', fun hmem => ?_⟩
    rcases mem_cons.mp hmem with rfl | hmem
    · rw [expirePing_gone] at hk'
      cases hk'
    exact hnot hmem

theorem noteFailed_heals (now : Instant) (eps : List SocketAddr) (r : Prober γ × List String) :
    (eps.foldl (noteFailed now) r).1.pings = r.1.pings ∧ (eps.foldl (noteFailed now) r).1.vips = r.1.vips :=
  List.foldlRecOn (motive := fun t : Prober γ × List String => t.1.pings = r.1.pings ∧ t.1.vips = r.1.vips) eps _
    ⟨rfl, rfl⟩ fun _ h _ _ => h

section
variable (h : Accounted s log)
include h

theorem Accounted.expirePendingPings (now : Instant) (order failOrder : IterOrder) : Accounted
    (s.expirePendingPings now order failOrder).1 log ∧ ∀ k p,
    (s.expirePendingPings now order failOrder).1.pings.lookup k = some p → s.pings.lookup k = some p ∧ now <
    p.deadline := by
  obtain ⟨hacc, hleft⟩ := Accounted.expire now (s.expired now order) (r := (s, [])) h
  obtain ⟨hpings, hvips⟩ := noteFailed_heals now
    (failOrder.arrange ((s.expired now order).foldl (expirePing now) (s, [])).2)
    (((s.expired now order).foldl (expirePing now) (s, [])).1, [])
  refine ⟨hacc.drops hpings fun vip hvip => hvips ▸ hvip, fun k p hk => ?_⟩
  rw [Prober.expirePendingPings, hpings] at hk
  obtain ⟨hk, hnot⟩ := hleft k p hk
  refine ⟨hk, not_le.mp fun hle => hnot ?_⟩
  refine List.mem_map.mpr ⟨⟨k, p⟩, mem_filter.mpr ⟨?_, decide_eq_true hle⟩, rfl⟩
  exact order.mem_arrange.mpr ((HashMap.lookup_eq_some_iff _).mp hk)

theorem Accounted.cleared
    (hlog : ∀ i ∈ log, i.ping.healVip = some vip → i.sentAt + millis 750 ≤ now) (order failOrder : IterOrder) :
    vip ∉ (s.expirePendingPings now order failOrder).1.vips := by
  intro hvip
  obtain ⟨hacc, hleft⟩ := h.expirePendingPings now order failOrder
  obtain ⟨k, p, hk, hp⟩ := hacc.backed vip hvip
  obtain ⟨i, hi, -, rfl⟩ := hacc.noted k p vip hk hp
  have hlate := (hleft k i.ping hk).2
  rw [h.timed i hi vip hp] at hlate
  exact absurd (hlog i hi hp) (not_le.mpr hlate)

/-! ## Runs -/

theorem Accounted.pingWatchdog {order failOrder : IterOrder}
    {heals : Nat → HealAttempt} : Accounted (s.pingWatchdog now order failOrder heals).1
    (log ++ (s.pingWatchdog now order failOrder heals).2) := by
  let heal := fun (s : Prober γ) (c : String × Nat) => s.spawnPredictiveHeal c.1 (heals c.2)
  let I (t : Prober γ) (out : List SentPing) : Prop := Accounted t (log ++ out)
  have hstep : ∀ t out c, True → I t out → I (heal t c).1 (out ++ (heal t c).2) := by
    intro t out c _ ht
    have hspawn := ht.spawnPredictiveHeal c.1 (heals c.2)
    rwa [List.append_assoc] at hspawn
  have h0 : I (s.expirePendingPings now order failOrder).1 [] := by
    have hleft := (h.expirePendingPings now order failOrder).1
    rwa [← append_nil log] at hleft
  exact trace_invariant hstep h0 fun _ _ _ => trivial

theorem Accounted.step (ev : Event) : Accounted (s.step ev).1 (log ++ (s.step ev).2) := by
  have hquiet : ∀ {t : Prober γ}, Accounted t log → Accounted t (log ++ []) := fun ht => by rwa [append_nil]
  have hother : ∀ {i : SentPing}, i.ping.healVip = none → i.Timed := by
    intro i hi vip hvip
    rw [hi] at hvip
    cases hvip
  cases ev with
  | spawnPredictiveHeal vip a => exact h.spawnPredictiveHeal vip a
  | pong body a =>
    refine hquiet (h.takes ?_)
    have htakes := Inbound.takes_handlePongBody s.inbound body a
    unfold Prober.step Prober.handlePongBody
    dsimp only
    split
    · exact htakes
    split
    · split <;> exact htakes
    exact htakes
  | pingWatchdog now order failOrder heals => exact h.pingWatchdog
  | pingPeer dest timeoutMs w =>
    refine h.sends pingPeer_sends (fun i hi => hother (of_mem_pingPeer hi)) fun vip hvip => ?_
    exact .inl (pingPeer_vips ▸ hvip)
  | sendProbePingsTo endpoints now epochMs send =>
    obtain ⟨hsends, hvips, hprobe⟩ := sweep_probePing s now epochMs send endpoints.zipIdx
    exact h.sends hsends (fun i hi => hother (hprobe i hi)) fun vip hvip => .inl (hvips ▸ hvip)
  | routing now op => exact hquiet (h.drops rfl fun _ hvip => hvip)
  | onPeerRouteRemoved vip => exact hquiet (h.drops rfl fun _ hvip => (mem_filter.mp hvip).1)
  | resetSession now =>
    refine hquiet ⟨fun vip hvip => absurd hvip not_mem_nil, fun k p vip hk => ?_, h.timed⟩
    cases hk
  | configure flags limits => exact hquiet (h.drops rfl fun _ hvip => hvip)

end

/-- An engine that has just started. -/
def Idle (s : Prober γ) : Prop := s.pings = ∅ ∧ s.vips = []

theorem Idle.accounted (h : s.Idle) : Accounted s [] where
  backed vip hvip := by
    have hmem : vip ∈ s.vips := hvip
    rw [h.2] at hmem
    cases hmem
  noted k p vip hk := by
    rw [h.1] at hk
    cases hk
  timed i hi := absurd hi not_mem_nil

theorem Idle.run (h : s.Idle) (evs : List Event) : Accounted (run Prober.step s evs) (trace Prober.step s evs) :=
  trace_invariant (fun _ _ ev (_ : True) ht => ht.step ev) h.accounted fun _ _ _ => trivial

/-- Whatever happens after the start, an address that is being healed has a ping of its heal in the table, whose
deadline is at most 750 ms after the ping was noted; and when that time has passed for all of its pings, the next
expiry takes the address away. -/
theorem heals_have_pings (s : Prober γ) (h : s.Idle) (evs : List Event) (vip : String)
    (hvip : vip ∈ (run Prober.step s evs).vips) :
    (∃ i ∈ trace Prober.step s evs, (∃ ep, i.ping.kind = .heal vip ep) ∧
        (run Prober.step s evs).pings.lookup i.id = some i.ping ∧
        i.ping.deadline ≤ i.sentAt + millis 750) ∧
      ∀ now order failOrder, (∀ i ∈ trace Prober.step s evs, ∀ ep, i.ping.kind = .heal vip ep →
          i.sentAt + millis 750 ≤ now) →
        vip ∉ ((run Prober.step s evs).expirePendingPings now order failOrder).1.vips := by
  have hacc := h.run evs
  refine ⟨?_, fun now order failOrder hlate => hacc.cleared (fun i hi hp => ?_) order failOrder⟩
  · obtain ⟨k, p, hk, hp⟩ := hacc.backed vip hvip
    obtain ⟨i, hi, rfl, rfl⟩ := hacc.noted k p vip hk hp
    exact ⟨i, hi, i.ping.heal_of_healVip hp, hk, (hacc.timed i hi vip hp).le⟩
  obtain ⟨ep, hkind⟩ := i.ping.heal_of_healVip hp
  exact hlate i hi ep hkind

def healer : Prober Unit where
  inbound := Inbound.oneRouteEngine "b"
  healCooldownUntil := ∅
  probeMissByEp := ∅
  nextPingId := ⟨1, by decide⟩
  featureFlags := ⟨true, false, false⟩
  engineLimits := .default

theorem healer_finds_id : (healer.allocatePingId []).isSome = true := allocatePingId_isSome (by decide)

def pingAt (now : Instant) : HealAttempt := ⟨now, fun _ => ⟨[], now, 0, true⟩, now⟩

def relearned : List Event :=
  [.spawnPredictiveHeal "10.0.0.2" (pingAt 0), .onPeerRouteRemoved "10.0.0.2",
    .routing (millis 1) (.update "10.0.0.2" Inbound.peerEp (some "b")),
    .spawnPredictiveHeal "10.0.0.2" (pingAt (millis 100)),
    .pingWatchdog (millis 800) .asStored .asStored fun _ => pingAt (millis 800)]

theorem relearned_has_ping :
    let r := run Prober.step healer relearned
    let sent := trace Prober.step healer relearned
    healer.Idle ∧ "10.0.0.2" ∈ r.vips ∧
      (∃ i ∈ sent, (∃ ep, i.ping.kind = .heal "10.0.0.2" ep) ∧ r.pings.lookup i.id = some i.ping ∧
        i.ping.deadline ≤ i.sentAt + millis 750) ∧
      "10.0.0.2" ∉ (r.expirePendingPings (millis 850) .asStored .asStored).1.vips := by
  intro r sent
  have hvip : "10.0.0.2" ∈ r.vips := by decide +kernel
  have hsent : ∀ i ∈ sent, i.sentAt + millis 750 ≤ millis 850 := by decide +kernel
  obtain ⟨hping, hclear⟩ := heals_have_pings healer ⟨rfl, rfl⟩ relearned "10.0.0.2" hvip
  exact ⟨⟨rfl, rfl⟩, hvip, hping, hclear _ _ _ fun i hi _ _ => hsent i hi⟩

end

end Prober

end ConnectUnit
