import Mathlib.Algebra.BigOperators.Group.Finset.Piecewise
import Mathlib.Algebra.Order.BigOperators.Group.Finset
import ConnectUnit.ForwardingSound

/-!
# Flooding a broadcast

The key of a packet stays with every engine that has checked it, for two seconds and 4095 other keys.
-/

open List (append_nil countP_congr length_filter_le length_map mem_map nil_append)
open Machine (Each run trace)
open Function (update update_of_ne update_self)

namespace ConnectUnit

open BroadcastDeduplicator

variable {r : BroadcastDeduplicator × List Action} {acts : List Action}
variable {acts' out : List Action} {key : BcastKey} {d : BroadcastDeduplicator} {now : Instant}
variable {fromEp dest : SocketAddr} {ok : SocketAddr → Bool} {a : Action}

def Action.isNoted : Action → Bool
  | .noted _ => true
  | .inject | .forward _ | .send _ => false

def Action.isTransmission : Action → Bool
  | .forward _ | .send _ => true
  | .noted _ | .inject => false

def visible (acts : List Action) : List Action := acts.filter (!·.isNoted)

def others (key : BcastKey) (acts : List Action) : Nat :=
  acts.countP fun
    | .noted k => k ≠ key
    | .inject | .forward _ | .send _ => false

theorem visible_append : visible (acts ++ acts') = visible acts ++ visible acts' := List.filter_append ..

theorem others_append : others key (acts ++ acts') = others key acts + others key acts' := List.countP_append

theorem visible_noted {fresh : Bool} : visible (Router.noted key fresh) = [] := by
  cases fresh <;> rfl

/-! ## One engine -/

section
variable {d : BroadcastDeduplicator} {now : Instant} {key : BcastKey} {start n : Nat}

theorem holds_check (h : d.Holds key start n) (hc : d.Consistent now) (hy : now < start + ttl) {k : BcastKey}
    (hn : n + others key (Router.noted k (d.isFreshKey now k).2) < maxCache) :
    (d.isFreshKey now k).1.Holds key start (n + others key (Router.noted k (d.isFreshKey now k).2)) := by
  by_cases hk : k = key
  · subst hk
    obtain ⟨hh, hf⟩ := h.isFreshKey_self hc hy
    rw [hf]
    exact hh
  have hcount : ∀ b, others key (Router.noted k b) = if b then 1 else 0 := by
    intro b
    cases b with
    | false => rfl
    | true => simp [others, Router.noted, hk]
  rw [hcount] at hn ⊢
  have hh := h.isFreshKey hy fun hf => by rw [hf] at hn; exact hn
  cases hf : (d.isFreshKey now k).2 with
  | false => rw [hf] at hh; exact hh
  | true => rw [hf] at hh; exact hh

end

section
variable {pkt : Bytes} (hb : isBroadcastOrMulticast pkt = true) (r : Router) {d : BroadcastDeduplicator}
  {now : Instant} (fromEp : SocketAddr) {key : BcastKey} {start n : Nat}
include hb

section
variable (h : d.Holds key start n) (hc : d.Consistent now) (hy : now < start + ttl)
include h hc hy

theorem forwardMdat_of_holds (hkey : d.makeKey pkt = key) :
    (r.forwardMdat d now pkt fromEp).2 = [] ∧ (r.forwardMdat d now pkt fromEp).1.Holds key start n := by
  unfold Router.forwardMdat Router.forwardBroadcast BroadcastDeduplicator.isFresh
  rw [hb, if_pos rfl, hkey]
  obtain ⟨hh, hf⟩ := h.isFreshKey_self hc hy
  dsimp only
  rw [hf]
  exact ⟨rfl, hh⟩

theorem handleMdatLike_of_holds
    (hkey : d.makeKey pkt = key) (hn : n + others key (r.handleMdatLike d now pkt fromEp).2 < maxCache) : visible
    (r.handleMdatLike d now pkt fromEp).2 = [] ∧ (r.handleMdatLike d now pkt fromEp).1.Holds key start
    (n + others key (r.handleMdatLike d now pkt fromEp).2) := by
  unfold Router.handleMdatLike at hn ⊢
  split at hn
  · rename_i hlen
    rw [if_pos hlen]
    exact ⟨rfl, h⟩
  rename_i hlen
  rw [if_neg hlen]
  cases hv : r.transitionVip now fromEp with
  | none =>
    obtain ⟨hout, hh⟩ := forwardMdat_of_holds hb r fromEp h hc hy hkey
    dsimp only
    rw [hout]
    exact ⟨rfl, hh⟩
  | some vip =>
    rw [hv] at hn
    dsimp only [BroadcastDeduplicator.isFreshScoped] at hn ⊢
    have hnoted : n + others key (Router.noted (d.makeScopedKey vip pkt)
        (d.isFreshKey now (d.makeScopedKey vip pkt)).2) < maxCache := by
      refine Nat.lt_of_le_of_lt (Nat.add_le_add_left ?_ n) hn
      split
      · rw [others_append]
        exact Nat.le_add_right _ _
      exact Nat.le_refl _
    have hh := holds_check h hc hy hnoted
    have hkey' := (makeKey_congr (isFreshKey_hasherState d now (d.makeScopedKey vip pkt)) pkt).trans hkey
    obtain ⟨hout, hh'⟩ := forwardMdat_of_holds hb r fromEp hh (hc.isFreshKey _) hy hkey'
    split
    · dsimp only
      rw [hout, append_nil]
      exact ⟨visible_noted, hh'⟩
    · exact ⟨visible_noted, hh⟩

end

theorem forwardMdat_visible (hkey : d.makeKey pkt = key) (hs : start ≤ now) : visible
    (r.forwardMdat d now pkt fromEp).2 = [] ∨ visible (r.forwardMdat d now pkt fromEp).2 = .inject ::
    (r.floodTargets fromEp).map .forward ∧ (r.forwardMdat d now pkt fromEp).1.Holds key start 0 := by
  unfold Router.forwardMdat Router.forwardBroadcast BroadcastDeduplicator.isFresh
  rw [hb, if_pos rfl, hkey]
  dsimp only
  rw [visible_append, visible_noted, nil_append]
  cases hf : (d.isFreshKey now key).2 with
  | false => exact .inl rfl
  | true =>
    refine .inr ⟨?_, holds_of_fresh hf hs⟩
    refine List.filter_eq_self.mpr fun a ha => ?_
    rcases List.mem_cons.mp ha with rfl | ha
    · rfl
    obtain ⟨ep, -, rfl⟩ := mem_map.mp ha
    rfl

theorem handleMdatLike_visible (hkey : d.makeKey pkt = key) (hs : start ≤ now) : visible
    (r.handleMdatLike d now pkt fromEp).2 = [] ∨ visible (r.handleMdatLike d now pkt fromEp).2 = .inject ::
    (r.floodTargets fromEp).map .forward ∧ (r.handleMdatLike d now pkt fromEp).1.Holds key start 0 := by
  unfold Router.handleMdatLike
  split
  · exact .inl rfl
  split
  · exact forwardMdat_visible hb r fromEp hkey hs
  rename_i vip _
  dsimp only [BroadcastDeduplicator.isFreshScoped]
  have hkey' := (makeKey_congr (isFreshKey_hasherState d now (d.makeScopedKey vip pkt)) pkt).trans hkey
  split
  · rw [visible_append, visible_noted, nil_append]
    exact forwardMdat_visible hb r fromEp hkey' hs
  exact .inl visible_noted

end

theorem handleMdatLike_hasherState {r : Router} {raw : Bytes}
    : (r.handleMdatLike d now raw fromEp).1.hasherState = d.hasherState := by
  have hf : ∀ d : BroadcastDeduplicator, (r.forwardMdat d now raw fromEp).1.hasherState = d.hasherState := by
    intro d
    unfold Router.forwardMdat
    split
    · exact isFreshKey_hasherState d now _
    rfl
  unfold Router.handleMdatLike
  split
  · rfl
  split
  · exact hf d
  dsimp only
  split
  · exact (hf _).trans (isFreshKey_hasherState d now _)
  exact isFreshKey_hasherState d now _

/-! ## All engines -/

namespace Mesh

section
variable {ι : Type} [DecidableEq ι]
variable {i : ι} {s : State ι} {log : List (ι × Action)}

def actionsOf (i : ι) (log : List (ι × Action)) : List Action :=
  log.filterMap fun x => if x.1 = i then some x.2 else none

theorem actionsOf_append {log' : List (ι × Action)} :
    actionsOf i (log ++ log') = actionsOf i log ++ actionsOf i log' := List.filterMap_append

theorem actionsOf_self : actionsOf i (out.map (i, ·)) = out := by
  unfold actionsOf
  rw [List.filterMap_map]
  simp

theorem actionsOf_other {j : ι} (h : i ≠ j) : actionsOf j (out.map (i, ·)) = [] := by
  unfold actionsOf
  rw [List.filterMap_map]
  simp [h]

variable (net : Mesh ι) (pkt : Bytes) (hash : ι → RandomState) (o : ι) (start : Instant)

def keyAt (i : ι) : BcastKey := (BroadcastDeduplicator.new (hash i)).makeKey pkt

def Allowed (i : ι) (v : List Action) : Prop :=
  if i = o then (∀ a ∈ v, ∃ ep, a = .send ep) ∧ v.length ≤ (net.router i).rows.length
  else ∃ f, v = .inject :: ((net.router i).floodTargets f).map .forward

def Stage (i : ι) (d : BroadcastDeduplicator) (acts : List Action) : Prop :=
  (i ≠ o ∧ visible acts = []) ∨
    (d.Holds (keyAt pkt hash i) start (others (keyAt pkt hash i) acts) ∧ net.Allowed o i (visible acts))

structure Tidy (s : State ι) : Prop where
  hasher : ∀ i, (s.dedup i).hasherState = hash i
  consistent : ∀ i, (s.dedup i).Consistent s.now
  start : start ≤ s.now

def Flooding (s : State ι) (log : List (ι × Action)) : Prop :=
  ∀ i, s.now < start + ttl → others (keyAt pkt hash i) (actionsOf i log) < maxCache →
    net.Stage pkt hash o start i (s.dedup i) (actionsOf i log)

def Still (s : State ι) (log : List (ι × Action)) : Prop :=
  s.flights = [] ∧ ∀ i, visible (actionsOf i log) = []

variable {net pkt hash o start}

omit [DecidableEq ι] in
theorem Tidy.makeKey (h : Tidy hash start s) (i : ι) : (s.dedup i).makeKey pkt = keyAt pkt hash i :=
  makeKey_congr (h.hasher i) pkt

theorem Tidy.act (h : Tidy hash start s)
    (hh : r.1.hasherState = hash i) (hc : r.1.Consistent s.now) : Tidy hash start (s.act net i r).1 := by
  refine ⟨fun j => ?_, fun j => ?_, h.start⟩
  · show (update s.dedup i r.1 j).hasherState = _
    by_cases hj : j = i
    · subst hj; rw [update_self]; exact hh
    rw [update_of_ne hj]; exact h.hasher j
  show (update s.dedup i r.1 j).Consistent _
  by_cases hj : j = i
  · subst hj; rw [update_self]; exact hc
  rw [update_of_ne hj]; exact h.consistent j

theorem Tidy.step (h : Tidy hash start s) (e : Event ι) : Tidy hash start (net.step pkt s e).1 := by
  cases e with
  | deliver i fromEp =>
    unfold Mesh.step
    dsimp only
    split
    · have h' : Tidy hash start { s with flights := s.flights.erase (fromEp, net.addr i) } :=
        ⟨h.hasher, h.consistent, h.start⟩
      refine h'.act ?_ (consistent_handleMdatLike (h.consistent i))
      exact (handleMdatLike_hasherState).trans (h.hasher i)
    · exact h
  | check i key =>
    refine h.act ?_ ((h.consistent i).isFreshKey key)
    exact (isFreshKey_hasherState _ _ _).trans (h.hasher i)
  | wait dt =>
    exact ⟨h.hasher, fun i => (h.consistent i).mono (Nat.le_add_right _ _),
      Nat.le_trans h.start (Nat.le_add_right _ _)⟩

theorem Flooding.act (h : net.Flooding pkt hash o start s log)
    (hi : s.now < start + ttl → others (keyAt pkt hash i) (actionsOf i log ++ r.2) < maxCache →
      net.Stage pkt hash o start i r.1 (actionsOf i log ++ r.2)) :
    net.Flooding pkt hash o start (s.act net i r).1 (log ++ (s.act net i r).2) := by
  intro j hy hn
  unfold State.act at hy hn ⊢
  dsimp only at hy hn ⊢
  rw [actionsOf_append] at hn ⊢
  by_cases hj : j = i
  · subst hj
    rw [actionsOf_self] at hn ⊢
    rw [update_self]
    exact hi hy hn
  rw [actionsOf_other (Ne.symm hj), append_nil] at hn ⊢
  rw [update_of_ne hj]
  exact h j hy hn

section
variable (hb : isBroadcastOrMulticast pkt = true)
include hb

theorem Stage.deliver (ht : Tidy hash start s)
    (h : net.Stage pkt hash o start i (s.dedup i) acts) (hy : s.now < start + ttl)
    (hn : others (keyAt pkt hash i)
      (acts ++ ((net.router i).handleMdatLike (s.dedup i) s.now pkt fromEp).2) < maxCache) :
    net.Stage pkt hash o start i ((net.router i).handleMdatLike (s.dedup i) s.now pkt fromEp).1
      (acts ++ ((net.router i).handleMdatLike (s.dedup i) s.now pkt fromEp).2) := by
  unfold Stage at h ⊢
  rw [others_append] at hn ⊢
  rw [visible_append]
  rcases h with ⟨hio, hv⟩ | ⟨hh, ha⟩
  · rw [hv, nil_append]
    rcases handleMdatLike_visible hb (net.router i) fromEp (ht.makeKey i) ht.start with hout | ⟨hout, hh⟩
    · exact .inl ⟨hio, hout⟩
    refine .inr ⟨hh.mono (Nat.zero_le _), ?_⟩
    unfold Allowed
    rw [if_neg hio]
    exact ⟨fromEp, hout⟩
  obtain ⟨hout, hh'⟩ := handleMdatLike_of_holds hb (net.router i) fromEp hh (ht.consistent i) hy (ht.makeKey i) hn
  rw [hout, append_nil]
  exact .inr ⟨hh', ha⟩

end

theorem Stage.check (ht : Tidy hash start s) (h : net.Stage pkt hash o start i (s.dedup i) acts)
    (hy : s.now < start + ttl)
    (hn : others (keyAt pkt hash i) (acts ++ Router.noted key ((s.dedup i).isFreshKey s.now key).2) < maxCache) :
    net.Stage pkt hash o start i ((s.dedup i).isFreshKey s.now key).1
    (acts ++ Router.noted key ((s.dedup i).isFreshKey s.now key).2) := by
  unfold Stage at h ⊢
  rw [others_append] at hn ⊢
  rw [visible_append, visible_noted, append_nil]
  rcases h with hv | ⟨hh, ha⟩
  · exact .inl hv
  exact .inr ⟨holds_check hh (ht.consistent i) hy hn, ha⟩

theorem others_lt_of_append (h : others key (acts ++ out) < maxCache) : others key acts < maxCache := by
  rw [others_append] at h
  exact Nat.lt_of_le_of_lt (Nat.le_add_right _ _) h

theorem Flooding.step (hb : isBroadcastOrMulticast pkt = true) (ht : Tidy hash start s)
    (h : net.Flooding pkt hash o start s log) (e : Event ι) :
    net.Flooding pkt hash o start (net.step pkt s e).1 (log ++ (net.step pkt s e).2) := by
  cases e with
  | deliver i fromEp =>
    unfold Mesh.step
    dsimp only
    split
    · have h' : net.Flooding pkt hash o start { s with flights := s.flights.erase (fromEp, net.addr i) } log := h
      exact h'.act fun hy hn => Stage.deliver hb ht (h i hy (others_lt_of_append hn)) hy hn
    rw [append_nil]
    exact h
  | check i key => exact h.act fun hy hn => Stage.check ht (h i hy (others_lt_of_append hn)) hy hn
  | wait dt =>
    intro i hy hn
    have hy : s.now < start + ttl := Nat.lt_of_le_of_lt (Nat.le_add_right _ _) hy
    rw [Mesh.step, append_nil] at hn ⊢
    exact h i hy hn

theorem Still.step (h : Still s log) (e : Event ι) : Still (net.step pkt s e).1 (log ++ (net.step pkt s e).2) := by
  cases e with
  | deliver i fromEp =>
    have hstep : net.step pkt s (.deliver i fromEp) = (s, []) := by
      refine if_neg fun hm => ?_
      rw [h.1] at hm
      cases hm
    rw [hstep, append_nil]
    exact h
  | check i key =>
    refine ⟨(step_check net pkt s i key).1.trans h.1, fun j => ?_⟩
    unfold Mesh.step State.act
    dsimp only
    rw [actionsOf_append, visible_append, h.2 j, nil_append]
    by_cases hj : i = j
    · subst hj
      rw [actionsOf_self]
      exact visible_noted
    rw [actionsOf_other hj]
    rfl
  | wait dt =>
    refine ⟨h.1, fun j => ?_⟩
    rw [Mesh.step, append_nil]
    exact h.2 j

/-! ## The origin -/

theorem length_sendDataWithFallback_le {r : Router} : (r.sendDataWithFallback ok dest).length ≤ 1 := by
  unfold Router.sendDataWithFallback
  split
  · exact Nat.le_refl 1
  rw [length_map]
  cases (r.relayHop (some dest)).filter fun hub => ok hub with
  | none => exact Nat.zero_le 1
  | some hub => exact Nat.le_refl 1

theorem mem_sendDataWithFallback {r : Router} (h : a ∈ r.sendDataWithFallback ok dest) : ∃ ep, a = .send ep := by
  unfold Router.sendDataWithFallback at h
  split at h
  · exact ⟨dest, List.mem_singleton.mp h⟩
  obtain ⟨hub, -, rfl⟩ := mem_map.mp h
  exact ⟨hub, rfl⟩

theorem length_broadcast_le {r : Router} :
    (r.endpointsExcludingStale.flatMap (r.sendDataWithFallback ok)).length ≤ r.rows.length := by
  have hle : ∀ l : List SocketAddr, (l.flatMap (r.sendDataWithFallback ok)).length ≤ l.length := by
    intro l
    induction l with
    | nil => exact Nat.le_refl 0
    | cons ep l ih =>
      rw [List.flatMap_cons, List.length_append, List.length_cons, Nat.add_comm]
      exact Nat.add_le_add ih length_sendDataWithFallback_le
  refine Nat.le_trans (hle _) ?_
  unfold Router.endpointsExcludingStale
  rw [length_map]
  exact length_filter_le _ _

theorem length_of_broadcast (hb : isBroadcastOrMulticast pkt = true) : ¬ pkt.length < 20 := by
  unfold isBroadcastOrMulticast at hb
  split at hb
  · simp only [Bool.and_eq_true, decide_eq_true_eq] at hb
    exact Nat.not_lt.mpr hb.1.1
  cases hb

theorem handleTunPacket_broadcast (hb : isBroadcastOrMulticast pkt = true) {r : Router}
    (hown : ¬ (dstU32 pkt = r.myVipU32 ∧ r.myVipU32 ≠ 0)) (hrow : r.routing.lookupByVipU32 (dstU32 pkt) = none)
    {prev : Option PathKind} :
    r.handleTunPacket now ok d pkt prev =
      ((d.isFresh now pkt).1, Router.noted (d.makeKey pkt) (d.isFresh now pkt).2 ++
      if (d.isFresh now pkt).2 then r.endpointsExcludingStale.flatMap (r.sendDataWithFallback ok) else []) := by
  unfold Router.handleTunPacket
  dsimp only
  rw [if_neg (length_of_broadcast hb), if_neg hown, hrow, hb]
  cases r.routing.lookupVipByU32 (dstU32 pkt) with
  | none => rfl
  | some vip => rfl

section
variable (hb : isBroadcastOrMulticast pkt = true) {s : State ι} (ok : SocketAddr → Bool) (prev : Option PathKind)
  (hown : ¬ (dstU32 pkt = (net.router o).myVipU32 ∧ (net.router o).myVipU32 ≠ 0))
  (hrow : (net.router o).routing.lookupByVipU32 (dstU32 pkt) = none)
include hb hown hrow

theorem Tidy.originate (ht : Tidy hash start s) : Tidy hash start (net.originate pkt s o ok prev).1 := by
  unfold Mesh.originate
  rw [handleTunPacket_broadcast hb hown hrow]
  exact ht.act ((isFreshKey_hasherState _ _ _).trans (ht.hasher o)) ((ht.consistent o).isFreshKey _)

theorem originate_still_or_flooding (ht : Tidy hash start s) (hfl : s.flights = []) : Still
    (net.originate pkt s o ok prev).1 (net.originate pkt s o ok prev).2 ∨ net.Flooding pkt hash o start
    (net.originate pkt s o ok prev).1 (net.originate pkt s o ok prev).2 := by
  unfold Mesh.originate
  rw [handleTunPacket_broadcast hb hown hrow]
  cases hf : ((s.dedup o).isFresh s.now pkt).2 with
  | false =>
    refine .inl ⟨?_, fun i => rfl⟩
    show s.flights ++ [] = []
    rw [hfl]
    rfl
  | true =>
    refine .inr fun i _ _ => ?_
    unfold State.act Stage
    dsimp only
    by_cases hi : i = o
    · subst hi
      have hkey : (s.dedup i).makeKey pkt = keyAt pkt hash i := ht.makeKey i
      have hh : ((s.dedup i).isFresh s.now pkt).1.Holds (keyAt pkt hash i) start 0 := by
        unfold BroadcastDeduplicator.isFresh at hf ⊢
        rw [hkey] at hf ⊢
        exact holds_of_fresh hf ht.start
      refine .inr ⟨?_, ?_⟩
      · rw [update_self]
        exact hh.mono (Nat.zero_le _)
      rw [actionsOf_self, visible_append, visible_noted, nil_append, if_pos rfl]
      unfold Allowed visible
      rw [if_pos rfl]
      refine ⟨fun a ha => ?_, Nat.le_trans (length_filter_le _ _) length_broadcast_le⟩
      obtain ⟨ep, -, ha⟩ := List.mem_flatMap.mp (List.mem_of_mem_filter ha)
      exact mem_sendDataWithFallback ha
    · refine .inl ⟨hi, ?_⟩
      rw [actionsOf_other (Ne.symm hi)]
      rfl

theorem flood_stage (ht : Tidy hash start s) (hfl : s.flights = []) {es : List (Event ι)} :
    let r := net.originate pkt s o ok prev
    let log := r.2 ++ trace (net.step pkt) r.1 es
    Still (run (net.step pkt) r.1 es) log ∨ net.Flooding pkt hash o start (run (net.step pkt) r.1 es) log := by
  intro r log
  have hok : Each (net.step pkt) r.1 es fun _ _ => True := fun _ _ _ => trivial
  have hinv : Tidy hash start (run (net.step pkt) r.1 es) ∧ (Still (run (net.step pkt) r.1 es) log ∨
        net.Flooding pkt hash o start (run (net.step pkt) r.1 es) log) := by
    refine Machine.trace_invariant (I := fun s log => Tidy hash start s ∧
      (Still s (r.2 ++ log) ∨ net.Flooding pkt hash o start s (r.2 ++ log))) ?_ ?_ hok
    · intro s log e _ h
      refine ⟨h.1.step e, ?_⟩
      rw [← List.append_assoc]
      rcases h.2 with hs | hf
      · exact .inl (hs.step e)
      exact .inr (hf.step hb h.1 e)
    rw [append_nil]
    exact ⟨ht.originate hb ok prev hown hrow, originate_still_or_flooding hb ok prev hown hrow ht hfl⟩
  exact hinv.2

end

/-! ## Counting -/

theorem countP_actionsOf {p : Action → Bool} : (actionsOf i log).countP p = log.countP fun x => x.1 = i && p x.2 := by
  unfold actionsOf
  rw [List.countP_filterMap]
  refine countP_congr fun x _ => ?_
  by_cases hx : x.1 = i
  · simp [hx]
  simp [hx]

theorem count_actionsOf : log.count (i, a) = (actionsOf i log).count a := by
  rw [List.count, List.count, countP_actionsOf]
  refine countP_congr fun x _ => ?_
  simp only [beq_iff_eq, Prod.ext_iff, Bool.and_eq_true, decide_eq_true_eq]

/-- How many frames have been sent. -/
def transmissions (log : List (ι × Action)) : Nat := log.countP (·.2.isTransmission)

theorem sum_transmissions [Fintype ι] : ∑ i, (actionsOf i log).countP Action.isTransmission = transmissions log := by
  induction log with
  | nil => simp [actionsOf, transmissions]
  | cons x log ih =>
    have hcons : ∀ i, (actionsOf i (x :: log)).countP Action.isTransmission =
        (actionsOf i log).countP Action.isTransmission + if x.1 =
          i then (if x.2.isTransmission then 1 else 0) else 0 := by
      intro i
      rw [countP_actionsOf, countP_actionsOf, List.countP_cons]
      by_cases hx : x.1 = i
      · simp [hx]
      simp [hx]
    rw [Finset.sum_congr rfl fun i _ => hcons i, Finset.sum_add_distrib, ih, Finset.sum_ite_eq,
        if_pos (Finset.mem_univ _)]
    unfold transmissions
    rw [List.countP_cons]

omit [DecidableEq ι] in
theorem countP_visible : acts.countP Action.isTransmission = (visible acts).countP Action.isTransmission := by
  unfold visible
  rw [List.countP_filter]
  refine countP_congr fun a _ => ?_
  cases a <;> simp [Action.isTransmission, Action.isNoted]

/-! ## To whom an engine forwards -/

/-- No two rows have the same endpoint. -/
def DistinctEndpoints (t : RoutingTable) : Prop := (t.table.entries.map (·.2.endpoint)).Nodup

theorem nodup_direct {r : Router} (h : DistinctEndpoints r.routing) (fromEp : SocketAddr) :
    (r.direct fromEp).Nodup := by
  have hrows : (r.rows.map (·.2.endpoint)).Nodup := by
    unfold Router.rows
    rw [List.map_map]
    exact ((r.order.arrange_perm _).map _).nodup_iff.mpr h
  unfold Router.direct
  exact hrows.sublist ((List.filter_sublist.trans List.filter_sublist).map _)

theorem nodup_floodTargets {r : Router} (h : DistinctEndpoints r.routing) : (r.floodTargets fromEp).Nodup := by
  have hd := nodup_direct h fromEp
  unfold Router.floodTargets
  split
  · rename_i hub _
    refine List.nodup_append.mpr ⟨hd.filter _, ?_, fun ep hep ep' hep' he => ?_⟩
    · split
      · exact List.nodup_singleton _
      · exact List.nodup_nil
    have hne : ep ≠ hub := of_decide_eq_true (List.mem_filter.mp hep).2
    split at hep'
    · exact hne (he.trans (List.mem_singleton.mp hep'))
    cases hep'
  · exact hd

theorem length_floodTargets_le {r : Router} : (r.floodTargets fromEp).length ≤ r.rows.length + 1 := by
  have hd : (r.direct fromEp).length ≤ r.rows.length := by
    unfold Router.direct
    rw [length_map]
    exact Nat.le_trans (length_filter_le _ _) (length_filter_le _ _)
  unfold Router.floodTargets
  split
  · rw [List.length_append]
    refine Nat.add_le_add (Nat.le_trans (length_filter_le _ _) hd) ?_
    split
    · exact Nat.le_refl 1
    exact Nat.zero_le 1
  · exact Nat.le_succ_of_le hd

theorem length_rows {r : Router} : r.rows.length = r.routing.table.size := by
  unfold Router.rows
  rw [length_map]
  exact (r.order.arrange_perm _).length_eq

/-! ## The flood -/

theorem count_allowed {v : List Action} (hd : DistinctEndpoints (net.router i).routing)
    (h : v = [] ∨ net.Allowed o i v) (ep : SocketAddr) : v.count .inject ≤ 1 ∧ (i = o → v.count .inject = 0) ∧ v.count
    (.forward ep) ≤ 1 ∧ v.countP Action.isTransmission ≤ (net.router i).routing.table.size + 1 := by
  rcases h with rfl | h
  · exact ⟨Nat.zero_le 1, fun _ => rfl, Nat.zero_le 1, Nat.zero_le _⟩
  unfold Allowed at h
  split at h
  · have hnone : ∀ a, (∀ ep, a ≠ .send ep) → v.count a = 0 := by
      intro a ha
      refine List.count_eq_zero.mpr fun hm => ?_
      obtain ⟨ep, he⟩ := h.1 a hm
      exact ha ep he
    have hinject : v.count .inject = 0 := hnone .inject nofun
    have hforward : v.count (.forward ep) = 0 := hnone (.forward ep) nofun
    refine ⟨hinject.trans_le (Nat.zero_le 1), fun _ => hinject, hforward.trans_le (Nat.zero_le 1), ?_⟩
    refine Nat.le_trans List.countP_le_length (Nat.le_succ_of_le ?_)
    rw [← length_rows]
    exact h.2
  rename_i hio
  obtain ⟨f, rfl⟩ := h
  have hinj : Function.Injective Action.forward := fun a b he => Action.forward.inj he
  have hnone : (((net.router i).floodTargets f).map Action.forward).count .inject = 0 := by
    refine List.count_eq_zero.mpr fun hm => ?_
    obtain ⟨ep, -, he⟩ := mem_map.mp hm
    cases he
  refine ⟨?_, fun he => absurd he hio, ?_, ?_⟩
  · rw [List.count_cons_self, hnone]
  · have hne : Action.inject ≠ .forward ep := nofun
    rw [List.count_cons_of_ne hne]
    exact List.nodup_iff_count_le_one.mp ((nodup_floodTargets hd).map hinj) _
  rw [List.countP_cons_of_neg (by decide), ← length_rows]
  refine Nat.le_trans List.countP_le_length ?_
  rw [length_map]
  exact length_floodTargets_le

/-- All that the engines do after the origin has got the packet from its adapter. -/
def floodLog (net : Mesh ι) (pkt : Bytes) (s : State ι) (o : ι) (ok : SocketAddr → Bool) (prev : Option PathKind)
    (es : List (Event ι)) : List (ι × Action) :=
  (net.originate pkt s o ok prev).2 ++ trace (net.step pkt) (net.originate pkt s o ok prev).1 es

end

instance (t : RoutingTable) : Decidable (DistinctEndpoints t) := inferInstanceAs (Decidable (List.Nodup _))

/-- A packet to 255.255.255.255. -/
def broadcastPacket : Bytes := 0x45 :: List.replicate 15 0 ++ [255, 255, 255, 255]

def calm {ι : Type} : State ι := ⟨fun _ => .new fun _ => 0, [], 0⟩

/-- Three engines that know each other. -/
def triangle : Mesh (Fin 3) where
  addr i := portAddr i
  router i := routerOf (ringVip i)
    [(ringVip (i + 1), portAddr (i + 1 : Fin 3)), (ringVip (i + 2), portAddr (i + 2 : Fin 3))]

def triangleRun : List (Event (Fin 3)) :=
  [.deliver 1 (portAddr 0), .deliver 2 (portAddr 1), .deliver 2 (portAddr 0), .deliver 1 (portAddr 2)]

/-- The first engine has a row for 255.255.255.255. -/
def rowForBroadcast : Mesh (Fin 3) where
  addr i := portAddr i
  router i := if i = 0 then routerOf (ringVip 0) [("255.255.255.255", portAddr 1)] else triangle.router i

/-- The second engine has two rows with the endpoint of the third. -/
def twoRows : Mesh (Fin 3) where
  addr i := portAddr i
  router i :=
    if i = 1 then routerOf (ringVip 1) [("10.0.0.3", portAddr 2), ("10.0.0.4", portAddr 2)] else triangle.router i

end Mesh

end ConnectUnit
