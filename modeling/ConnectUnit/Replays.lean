import ConnectUnit.Ciphers

/-!
# Replayed frames

How often an engine lets one sealed frame through.
-/

open Machine (emitAt emitAt_mem exists_of_moves stateAt stateAt_succ)

namespace ConnectUnit

variable {evs : List (Instant × Event)} {i tie n ports : Nat} {now : Instant} {frame body : Bytes}
variable {fromEp : SocketAddr} {tag : Tag} {keys : List AeadKey} {srcKey key : UInt64} {l : ControlRateLimiter}
variable {P : Primitives} {start : Start}

namespace Engine

section
variable (P : Primitives) (start : Start) (evs : List (Instant × Event))

/-! ## Control frames -/

/-- The `i`-th event delivers this sealed control frame from a source with this key, and its content
is dispatched. -/
def DispatchedAt (i : Nat) (frame : Bytes) (srcKey : UInt64) : Prop :=
  ∃ now fromEp tie, evs[i]? = some (now, .signedWrapper frame fromEp tie) ∧ srcAddrKey fromEp = srcKey ∧
    ∃ tag body, .dispatchControl tag body fromEp ∈ emitAt (step P) start.engine evs i

def ResetAt (i : Nat) : Prop := ∃ now, evs[i]? = some (now, .resetSession)

end

theorem dispatched_move (P : Primitives) (start : Start) (h : evs[i]? = some (now, .signedWrapper frame fromEp tie)) :
    (controlMoves P start evs)[i]? =
      some (.deliver ((stateAt (step P) start.engine evs i).cryptoKeys.keysForDecrypt fromEp)
        (srcAddrKey fromEp) frame now tie) := Machine.moves_of_getElem? h

section
variable {P : Primitives} {start : Start} {evs : List (Instant × Event)}

theorem dispatched_emit (h : .dispatchControl tag body fromEp ∈ emitAt (step P) start.engine evs i) :
    .dispatched tag body ∈ emitAt (ControlCrypto.step P) (.new start.now) (controlMoves P start evs) i :=
  (simulates_control P).mem_emitAt h rfl

theorem resetAt_of_move (h : (controlMoves P start evs)[i]? = some .reset) : ResetAt evs i := by
  obtain ⟨⟨now, ev⟩, hev, hmove⟩ := exists_of_moves h
  obtain rfl : ev = .resetSession := resetSession_of_controlMove hmove
  exact ⟨now, hev⟩

theorem dispatchedAt_of_move (hmv : (controlMoves P start evs)[i]? = some (.deliver keys srcKey frame now tie))
    (hout : .dispatched tag body ∈ emitAt (ControlCrypto.step P) (.new start.now) (controlMoves P start evs) i) :
    DispatchedAt P start evs i frame srcKey := by
  obtain ⟨ev, hev, hmove⟩ := exists_of_moves hmv
  obtain ⟨fromEp, rfl, hsrc⟩ := signedWrapper_of_controlMove hmove
  refine ⟨now, fromEp, tie, hev, hsrc, ?_⟩
  have hfilter := (simulates_control P).emitAt start.engine evs i
  obtain ⟨out, hmem, _⟩ := List.mem_filterMap.mp (hfilter ▸ hout)
  obtain ⟨ev', hev', hstep⟩ := emitAt_mem _ _ _ hmem
  cases hev.symm.trans hev'
  obtain ⟨tag', q, rfl⟩ := mem_handleSignedWrapper P hstep
  exact ⟨tag', q, hmem⟩

end

/-- However many sources send, at most 4096 are remembered, and every cached cipher is the one its key derives. -/
theorem run_control_bounded (P : Primitives) (start : Start) (evs : List (Instant × Event)) (i : Nat) :
    (stateAt (step P) start.engine evs i).control.ctrlReplay.sources.size ≤ 4096 ∧
      (stateAt (step P) start.engine evs i).control.CiphersDerived P := by
  have h := ControlCrypto.wellFormed_run (P := P) start.now (controlMoves P start evs) (i := i)
  have hstate := (simulates_control P).stateAt start.engine evs i
  change stateAt (ControlCrypto.step P) (.new start.now) _ i = _ at hstate
  rw [hstate] at h
  have hsize := h.withinBound.size_le
  rw [h.withinBound.bound] at hsize
  exact ⟨hsize, h.derived⟩

/-- Between two resets, a control frame is dispatched at most once for each source address, as long as
no accepted frame of a new source evicts that address from the full table. -/
theorem run_control_dispatched_once (P : Primitives) (start : Start) (evs : List (Instant × Event)) {j : Nat}
    (hij : i < j) (hi : DispatchedAt P start evs i frame srcKey)
    (hreset : ∀ k, i < k → k < j → ¬ ResetAt evs k)
    (hevict : ∀ k frame' srcKey', i < k → k < j → DispatchedAt P start evs k frame' srcKey' →
      ¬ (stateAt (step P) start.engine evs k).control.ctrlReplay.Evicts srcKey' srcKey) :
    ¬ DispatchedAt P start evs j frame srcKey := by
  intro h
  obtain ⟨now', fromEp', tie', hevj, hsrc, tag', body', hj⟩ := h
  obtain ⟨now, fromEp, tie, hevi, rfl, tag, body, hi⟩ := hi
  have hmj := dispatched_move P start hevj
  rw [hsrc] at hmj
  obtain ⟨k, keys, src, frame', now'', tie'', hk, hkj, hmk, ⟨tag'', q, hout⟩, hev⟩ :=
    ControlCrypto.evicts_of_dispatched_twice start.now _ hij (dispatched_move P start hevi) hmj (dispatched_emit hi)
      (dispatched_emit hj) fun k hk hkj hmk => hreset k hk hkj (resetAt_of_move hmk)
  have hstate : stateAt (ControlCrypto.step P) (.new start.now) (controlMoves P start evs) k =
        (stateAt (step P) start.engine evs k).control := (simulates_control P).stateAt start.engine evs k
  rw [hstate] at hev
  exact hevict k frame' src hk hkj (dispatchedAt_of_move hmk hout) hev

def joinFrame : Bytes := List.replicate 6 0 ++ (pktJoin.bytes ++ [1]) ++ padTag ctrlAad

theorem run_control_dispatched_once_same_source : ¬ DispatchedAt .transparent firstNode
      [(1, .setCryptoKey (.filled 7)), (2, .signedWrapper joinFrame secondEp 0),
        (3, .signedWrapper joinFrame (.v4 0xC0A80103 7777) 0), (4, .signedWrapper joinFrame secondEp 0)]
      3 joinFrame (srcAddrKey secondEp) := by
  refine run_control_dispatched_once .transparent firstNode _ (i := 1) (by decide) ?_ ?_ ?_
  · exact ⟨2, secondEp, 0, rfl, rfl, pktJoin, [1], by decide +kernel⟩
  · intro k hk hkj h
    obtain ⟨now, hev⟩ := h
    obtain rfl : k = 2 := by omega
    cases hev
  intro k frame' srcKey' hk hkj _ h
  obtain ⟨_, hfull, _⟩ := h
  obtain rfl : k = 2 := by omega
  exact absurd hfull (by decide +kernel)

/-! ## A full table of sources -/

def portEp (n : Nat) : SocketAddr := .v4 0xC0A80103 (UInt16.ofNat n)

theorem srcAddrKey_portEp {m : Nat} (hm : m < 65536) (hn : n < 65536)
    (h : srcAddrKey (portEp m) = srcAddrKey (portEp n)) : m = n := by
  unfold srcAddrKey at h
  have h' : (UInt16.ofNat m).toUInt64 = (UInt16.ofNat n).toUInt64 := (UInt64.xor_right_inj _).mp h
  have h2 := congrArg UInt64.toNat h'
  simp only [UInt16.toNat_toUInt64, UInt16.toNat_ofNat'] at h2
  omega

theorem openInto_join {aead : ControlPlaneAead} : aead.openInto .transparent (joinFrame.take wireCounterLen)
    (joinFrame.drop wireCounterLen) = some (pktJoin.bytes ++ [1]) := rfl

theorem openWithKeys_join (hk : keys ≠ []) (c : ControlCrypto) : ∃ c' key, ControlCrypto.openWithKeys .transparent
    (joinFrame.take wireCounterLen) (joinFrame.drop wireCounterLen) c keys = (c', some (key, pktJoin.bytes ++ [1])) ∧
    ControlCrypto.Recached .transparent c c' := by
  cases keys with
  | nil => exact absurd rfl hk
  | cons key keys =>
    have hc := ControlCrypto.controlPlaneCipher_recached (P := .transparent) c key
    unfold ControlCrypto.openWithKeys
    split
    · rename_i c' hcipher
      exfalso
      have hsome : (ControlCrypto.controlPlaneCipher .transparent c key).2.isSome := by
        unfold ControlCrypto.controlPlaneCipher
        split
        · rfl
        rfl
      rw [hcipher] at hsome
      cases hsome
    rename_i c' aead hcipher
    rw [hcipher] at hc
    rw [openInto_join]
    exact ⟨c', key, rfl, hc⟩

theorem openSigned_join (hk : keys ≠ []) (c : ControlCrypto) {src : UInt64} (tie : Nat)
    (hlimit : (c.ctrlLimiter.allow src now).2 = true) (hallow : c.ctrlReplay.allows src 0 = true) : ∃ key,
    (ControlCrypto.openSigned .transparent c keys src joinFrame now tie).2 = some (key, pktJoin, [1]) ∧
    (ControlCrypto.openSigned .transparent c keys src joinFrame now tie).1.ctrlReplay = c.ctrlReplay.commit src 0 now
    tie ∧ (ControlCrypto.openSigned .transparent c keys src joinFrame now tie).1.ctrlLimiter =
    (c.ctrlLimiter.allow src now).1 := by
  obtain ⟨c', key, hopen, hc⟩ := openWithKeys_join hk c
  have hlen : ¬ joinFrame.length < ControlCrypto.minCtrlAead := by decide
  have hcounter : decodeWireCounter (joinFrame.take wireCounterLen) = 0 := rfl
  have hsplit : Tag.split (pktJoin.bytes ++ [1]) = some (pktJoin, [1]) := rfl
  refine ⟨key, ?_⟩
  simp only [ControlCrypto.openSigned, if_neg hlen, hopen, hsplit, hc.limiter, hlimit, Bool.not_true,
    Bool.false_eq_true, if_false, hc.replay, hcounter, hallow]
  exact ⟨trivial, trivial, trivial⟩

def victim : UInt64 := srcAddrKey (portEp 4096)

structure Limits (n : Nat) (l : ControlRateLimiter) : Prop where
  lastReap : l.lastReap = 0
  capacity : l.capacity = 400
  refill : l.refillPerSec = 400
  size : l.entries.size ≤ n + 1
  known : ∀ key, key ∈ l.entries → key = victim ∨ ∃ m < n, key = srcAddrKey (portEp m)
  spare : ∃ b, l.entries.lookup victim = some b ∧ 1 ≤ b.tokens

theorem portEp_fresh (hn : n < 4096)
    (h : key = victim ∨ ∃ m < n, key = srcAddrKey (portEp m)) : key ≠ srcAddrKey (portEp n) := by
  intro he
  subst he
  rcases h with h | ⟨m, hm, h⟩
  · have := srcAddrKey_portEp (by omega) (by omega) h
    omega
  have := srcAddrKey_portEp (by omega) (by omega) h
  omega

theorem Limits.allow (hn : n < 4096) (h : Limits n l) :
    (l.allow (srcAddrKey (portEp n)) 3).2 = true ∧ Limits (n + 1) (l.allow (srcAddrKey (portEp n)) 3).1 := by
  have hfresh : srcAddrKey (portEp n) ∉ l.entries := fun hm => portEp_fresh hn (h.known _ hm) rfl
  have hr := ControlRateLimiter.refilled_fresh (AList.lookup_eq_none.mpr hfresh) 3
  have hsize := h.size
  have hallow := ControlRateLimiter.allow_of_room (srcAddrKey (portEp n)) 3 (by rw [h.lastReap]; decide)
    (by unfold ControlRateLimiter.maxEntries; omega) (by rw [hr, h.capacity]; norm_num)
  rw [hallow]
  refine ⟨rfl, h.lastReap, h.capacity, h.refill, ?_, ?_, ?_⟩
  · simp only [HashMap.size_insert_of_notMem _ hfresh]; omega
  · intro key hkey
    rcases (AList.mem_insert _).mp hkey with rfl | hkey
    · exact .inr ⟨n, by omega, rfl⟩
    exact (h.known key hkey).imp_right fun ⟨m, hm, hk⟩ => ⟨m, by omega, hk⟩
  obtain ⟨b, hb, ht⟩ := h.spare
  refine ⟨b, ?_, ht⟩
  rw [HashMap.lookup_insert_eq, if_neg (portEp_fresh hn (.inl rfl))]
  exact hb

theorem Limits.allow_victim (hn : n ≤ 4096) (h : Limits n l) : (l.allow victim 4).2 = true := by
  obtain ⟨b, hb, ht⟩ := h.spare
  have hsize := h.size
  have htokens : 1 ≤ (l.refilled victim 4).tokens := by
    have helapsed : (0 : ℚ) ≤ ((4 - b.lastRefill : Nat) : ℚ) / 1000000000 * 400 := by positivity
    simp only [ControlRateLimiter.refilled, hb, Option.getD_some, h.capacity, h.refill, le_min_iff]
    exact ⟨by linarith, by norm_num⟩
  rw [ControlRateLimiter.allow_of_room victim 4 (by rw [h.lastReap]; decide)
    (by unfold ControlRateLimiter.maxEntries; omega) htokens]

structure Flooded (n : Nat) (c : ControlCrypto) : Prop where
  bound : c.ctrlReplay.WithinBound
  size : c.ctrlReplay.sources.size = n + 1
  oldest : ∃ w, c.ctrlReplay.sources.lookup victim = some (w, 2)
  others : ∀ key w t, c.ctrlReplay.sources.lookup key = some (w, t) →
    key = victim ∨ t = 3 ∧ ∃ m < n, key = srcAddrKey (portEp m)
  limits : Limits n c.ctrlLimiter

namespace Flooded

variable {n : Nat} {c c' : ControlCrypto}

theorem fresh (h : Flooded n c) (hn : n < 4096) : c.ctrlReplay.sources.lookup (srcAddrKey (portEp n)) = none := by
  cases hl : c.ctrlReplay.sources.lookup (srcAddrKey (portEp n)) with
  | none => rfl
  | some v => exact absurd rfl (portEp_fresh hn ((h.others _ v.1 v.2 hl).imp_right And.right))

theorem oldest_eq (h : Flooded n c) (ho : c.ctrlReplay.oldest tie = some key) : key = victim := by
  obtain ⟨hmem, hold⟩ := CtrlReplayTable.oldest_mem ho
  obtain ⟨⟨w, t⟩, hl⟩ := (HashMap.mem_iff_lookup _).mp hmem
  obtain ⟨w', hv⟩ := h.oldest
  rcases h.others key w t hl with hk | ⟨ht, _⟩
  · exact hk
  have hall : ∀ e ∈ c.ctrlReplay.sources.entries, t ≤ e.2.2 := by
    simpa [CtrlReplayTable.isOldest, hl] using hold
  have hle : t ≤ 2 := hall _ ((HashMap.lookup_eq_some_iff _).mp hv)
  rw [ht] at hle
  exact absurd hle (by decide)

theorem step (h : Flooded n c) (hn : n < 4095) (tie : Nat)
    (hreplay : c'.ctrlReplay = c.ctrlReplay.commit (srcAddrKey (portEp n)) 0 3 tie)
    (hlimits : Limits (n + 1) c'.ctrlLimiter) : Flooded (n + 1) c' := by
  have hnone := h.fresh (by omega)
  have hmax : c.ctrlReplay.maxSources = 4096 := h.bound.bound
  have hroom : ¬ c.ctrlReplay.sources.size ≥ c.ctrlReplay.maxSources := by rw [h.size, hmax]; omega
  have hcommit : c'.ctrlReplay = { c.ctrlReplay with
      sources := c.ctrlReplay.sources.insert (srcAddrKey (portEp n)) (ReplayWindow.new.commit 0, 3) } := by
    rw [hreplay]
    simp only [CtrlReplayTable.commit, hnone, hroom, if_false]
  have hbound := (h.bound.commit (srcAddrKey (portEp n)) 0 3 tie).withinBound
  rw [← hreplay] at hbound
  refine ⟨hbound, ?_, ?_, ?_, hlimits⟩
  · rw [hcommit]
    simp only [HashMap.size_insert_of_notMem _ (AList.lookup_eq_none.mp hnone), h.size]
  · obtain ⟨w, hw⟩ := h.oldest
    refine ⟨w, ?_⟩
    rw [hcommit, HashMap.lookup_insert_eq, if_neg (portEp_fresh (by omega) (.inl rfl))]
    exact hw
  intro key w t hl
  rw [hcommit, HashMap.lookup_insert_eq] at hl
  split at hl
  · rename_i hk
    cases hl
    exact .inr ⟨rfl, n, by omega, hk⟩
  · exact (h.others key w t hl).imp_right fun ⟨ht, m, hm, hk⟩ => ⟨ht, m, by omega, hk⟩

theorem evicted (h : Flooded n c) (hn : n = 4095)
    (hreplay : c'.ctrlReplay = c.ctrlReplay.commit (srcAddrKey (portEp n)) 0 3 tie) :
    c'.ctrlReplay.sources.lookup victim = none := by
  have hnone := h.fresh (by omega)
  have hmax : c.ctrlReplay.maxSources = 4096 := h.bound.bound
  have hfull : c.ctrlReplay.maxSources ≤ c.ctrlReplay.sources.size := by rw [h.size, hmax]; omega
  obtain ⟨key, hold, hevict, hroom⟩ := h.bound.evict hfull tie
  obtain rfl := h.oldest_eq hold
  rw [hreplay]
  simp only [CtrlReplayTable.commit, hnone, ge_iff_le, hfull, if_true, hevict, Nat.not_le.mpr hroom, if_false]
  rw [HashMap.lookup_insert_eq, if_neg (portEp_fresh (by omega) (.inl rfl)), HashMap.lookup_erase_eq, if_pos rfl]

end Flooded

theorem signedWrapper_join {e : Engine} (hp : e.dataPlane.primary.isSome) {ep : SocketAddr} (tie : Nat)
    (hlimit : (e.control.ctrlLimiter.allow (srcAddrKey ep) now).2 = true)
    (hallow : e.control.ctrlReplay.allows (srcAddrKey ep) 0 = true) : .dispatchControl pktJoin [1] ep ∈
    (e.step .transparent (now, .signedWrapper joinFrame ep tie)).2 ∧
    (e.step .transparent (now, .signedWrapper joinFrame ep tie)).1.dataPlane.primary.isSome ∧
    (e.step .transparent (now, .signedWrapper joinFrame ep tie)).1.control.ctrlReplay = e.control.ctrlReplay.commit
    (srcAddrKey ep) 0 now tie ∧ (e.step .transparent (now, .signedWrapper joinFrame ep tie)).1.control.ctrlLimiter =
    (e.control.ctrlLimiter.allow (srcAddrKey ep) now).1 := by
  have hprimary : e.cryptoKeys.primary.isSome := by simpa [dataPlane, dataPlanePrimaryKey] using hp
  have hkeys := CryptoPool.keysForDecrypt_ne_nil hprimary ep
  obtain ⟨key, hopened, hreplay, hlimiter⟩ := openSigned_join hkeys e.control tie hlimit hallow
  have hstate := (step_control .transparent e (now, .signedWrapper joinFrame ep tie)).1
  have hdata := (step_dataPlane .transparent e (now, .signedWrapper joinFrame ep tie)).1
  refine ⟨?_, ?_, ?_, ?_⟩
  · simp only [step, handleSignedWrapper, hopened, List.mem_singleton]
  · rw [hdata]; exact hp
  · rw [hstate]; exact hreplay
  · rw [hstate]; exact hlimiter

/-- A frame comes from the victim, from every port, and from the victim again. -/
def floodRun (ports : Nat) : List (Instant × Event) :=
  [(1, .setCryptoKey (.filled 7)), (2, .signedWrapper joinFrame (portEp 4096) 0)] ++
    ((List.range ports).map fun n => (3, .signedWrapper joinFrame (portEp n) 0)) ++
    [(4, .signedWrapper joinFrame (portEp 4096) 0)]

theorem floodRun_port (hn : n < ports) :
    (floodRun ports)[n + 2]? = some (3, .signedWrapper joinFrame (portEp n) 0) := by
  unfold floodRun
  rw [List.getElem?_append_left (by simp; omega), List.getElem?_append_right (by simp)]
  simp [hn]

theorem floodRun_last : (floodRun ports)[ports + 2]? = some (4, .signedWrapper joinFrame (portEp 4096) 0) := by
  unfold floodRun
  rw [List.getElem?_append_right (by simp)]
  simp

abbrev floodAt (ports i : Nat) : Engine := stateAt (step .transparent) firstNode.engine (floodRun ports) i

theorem limits_zero : ((ControlRateLimiter.new 400 400 0).allow victim 2).2 = true ∧
    Limits 0 ((ControlRateLimiter.new 400 400 0).allow victim 2).1 := by
  have hfresh : (ControlRateLimiter.new 400 400 0).entries.lookup victim = none := rfl
  have hr := ControlRateLimiter.refilled_fresh hfresh 2
  rw [ControlRateLimiter.allow_of_room victim 2 (by decide) (by decide)
      (by rw [hr]; norm_num [ControlRateLimiter.new])]
  refine ⟨rfl, rfl, rfl, rfl, le_rfl, fun key hkey => ?_, ⟨_, rfl, ?_⟩⟩
  · exact .inl (List.mem_singleton.mp hkey)
  rw [hr]; norm_num [ControlRateLimiter.new]

theorem flooded_zero : (floodAt ports 2).dataPlane.primary.isSome ∧ Flooded 0 (floodAt ports 2).control := by
  obtain ⟨_, hp, hreplay, hlimiter⟩ := signedWrapper_join (e := floodAt ports 1) rfl 0 limits_zero.1 rfl
  have hnext : floodAt ports 2 =
      ((floodAt ports 1).step .transparent (2, .signedWrapper joinFrame (portEp 4096) 0)).1 :=
    stateAt_succ _ _ _ rfl
  have hbound := (CtrlReplayTable.withinBound_new.commit victim 0 2 0).withinBound
  rw [hnext]
  refine ⟨hp, hreplay ▸ hbound, hreplay ▸ rfl, hreplay ▸ ⟨_, rfl⟩, ?_, hlimiter ▸ limits_zero.2⟩
  intro key w t hl
  rw [hreplay] at hl
  have hmem := (HashMap.mem_iff_lookup _).mpr ⟨_, hl⟩
  exact .inl (List.mem_singleton.mp hmem)

theorem flood_step (hports : n < ports) (hn : n < 4096) (hp : (floodAt ports (n + 2)).dataPlane.primary.isSome)
    (hf : Flooded n (floodAt ports (n + 2)).control) : (floodAt ports (n + 1 + 2)).dataPlane.primary.isSome ∧
    (floodAt ports (n + 1 + 2)).control.ctrlReplay = (floodAt ports (n + 2)).control.ctrlReplay.commit
    (srcAddrKey (portEp n)) 0 3 0 ∧ Limits (n + 1) (floodAt ports (n + 1 + 2)).control.ctrlLimiter := by
  have hallow : (floodAt ports (n + 2)).control.ctrlReplay.allows (srcAddrKey (portEp n)) 0 = true := by
    unfold CtrlReplayTable.allows
    rw [hf.fresh hn]
  obtain ⟨hlimit, hlimits⟩ := hf.limits.allow hn
  obtain ⟨_, hp', hreplay, hlimiter⟩ := signedWrapper_join hp 0 hlimit hallow
  rw [show floodAt ports (n + 1 + 2) = _ from stateAt_succ _ _ _ (floodRun_port hports)]
  exact ⟨hp', hreplay, hlimiter ▸ hlimits⟩

theorem flooded_at (ports n : Nat) (hports : n ≤ ports) (hn : n ≤ 4095) :
    (floodAt ports (n + 2)).dataPlane.primary.isSome ∧ Flooded n (floodAt ports (n + 2)).control := by
  induction n with
  | zero => exact flooded_zero
  | succ n ih =>
    obtain ⟨hp, hf⟩ := ih (by omega) (by omega)
    obtain ⟨hp', hreplay, hlimits⟩ := flood_step (by omega) (by omega) hp hf
    exact ⟨hp', hf.step (by omega) 0 hreplay hlimits⟩

theorem flood_end (hports : ports = 4096) : .dispatchControl pktJoin [1] (portEp 4096) ∈
    emitAt (step .transparent) firstNode.engine (floodRun ports) (ports + 2) := by
  obtain ⟨n, rfl⟩ : ∃ n, ports = n + 1 := ⟨4095, hports⟩
  obtain ⟨hp, hf⟩ := flooded_at (n + 1) n (by omega) (by omega)
  obtain ⟨hp', hreplay, hlimits⟩ := flood_step (by omega) (by omega) hp hf
  have hlast : (floodAt (n + 1) (n + 1 + 2)).control.ctrlReplay.allows victim 0 = true := by
    unfold CtrlReplayTable.allows
    rw [hf.evicted (by omega) hreplay]
  unfold emitAt
  rw [floodRun_last]
  exact (signedWrapper_join hp' 0 (hlimits.allow_victim (by omega)) hlast).1

theorem flood_first : .dispatchControl pktJoin [1] (portEp 4096) ∈
    emitAt (step .transparent) firstNode.engine (floodRun ports) 1 :=
  (signedWrapper_join (e := floodAt ports 1) rfl 0 limits_zero.1 rfl).1

theorem floodRun_not_reset (k : Nat) : ¬ ResetAt (floodRun ports) k := by
  intro h
  obtain ⟨now, hev⟩ := h
  have hmem := List.mem_of_getElem? hev
  simp [floodRun] at hmem

def DispatchedTwice (evs : List (Instant × Event)) (frame : Bytes) (srcKey srcKey' : UInt64) : Prop :=
  (∀ k, ¬ ResetAt evs k) ∧ ∃ i j, i ≠ j ∧ DispatchedAt .transparent firstNode evs i frame srcKey ∧
    DispatchedAt .transparent firstNode evs j frame srcKey'

/-- The frame passes from two ports of one host, and twice from one port if all others come in between. -/
theorem control_frame_dispatched_twice : srcAddrKey (portEp 0) ≠ victim ∧ DispatchedTwice (floodRun 1) joinFrame
    victim (srcAddrKey (portEp 0)) ∧ DispatchedTwice (floodRun 4096) joinFrame victim victim := by
  refine ⟨by decide, ⟨floodRun_not_reset, 1, 2, by decide, ?_, ?_⟩,
    ⟨floodRun_not_reset, 1, 4096 + 2, by decide, ?_, ?_⟩⟩
  · exact ⟨2, portEp 4096, 0, rfl, rfl, pktJoin, [1], flood_first⟩
  · exact ⟨3, portEp 0, 0, rfl, rfl, pktJoin, [1], by decide +kernel⟩
  · exact ⟨2, portEp 4096, 0, rfl, rfl, pktJoin, [1], flood_first⟩
  · exact ⟨4, portEp 4096, 0, floodRun_last, rfl, pktJoin, [1], flood_end rfl⟩

/-! ## Data frames -/

section
variable (P : Primitives) (start : Start) (evs : List (Instant × Event))

/-- The `i`-th event delivers this encrypted data frame, and it is decrypted and passed on. -/
def DeliveredAt (i : Nat) (frame : Bytes) : Prop :=
  ∃ now fromEp, evs[i]? = some (now, .encrypted frame fromEp) ∧
    ∃ plain, .handleMdatLike plain fromEp ∈ emitAt (step P) start.engine evs i

/-- Between two deliveries of one frame, the peer that its source stands for keeps its replay window. -/
def KeepsWindows : Prop :=
  ∀ i j k now now' evk frame fromEp fromEp' peer, i < k → k < j →
    evs[i]? = some (now, .encrypted frame fromEp) → evs[j]? = some (now', .encrypted frame fromEp') →
    (stateAt (step P) start.engine evs i).endpointToVipU32 fromEp = some peer →
    evs[k]? = some evk → ¬ (stateAt (step P) start.engine evs k).DropsPeer P peer evk

end

theorem delivered_move (h : DeliveredAt P start evs i frame) : ∃ now fromEp peer my plain, evs[i]? = some
    (now, .encrypted frame fromEp) ∧ (stateAt (step P) start.engine evs i).endpointToVipU32 fromEp = some peer
    ∧ (dataMoves P start evs)[i]? = some (.receive peer my frame) ∧ .opened plain ∈ emitAt (DataPlane.step P)
    .new (dataMoves P start evs) i := by
  obtain ⟨now, fromEp, hev, plain, hout⟩ := h
  have hopened := (simulates_dataPlane P).mem_emitAt hout rfl
  obtain ⟨mv, hmv, hmem⟩ := emitAt_mem _ _ _ hopened
  obtain ⟨peer, my, body, rfl, _⟩ := DataPlane.opened_step hmem
  obtain ⟨ev', hev', hmove⟩ := exists_of_moves hmv
  cases hev.symm.trans hev'
  obtain ⟨rfl, hpeer⟩ := receive_of_dataMove P hmove
  exact ⟨now, fromEp, peer, my, plain, hev, hpeer, hmv, hopened⟩

theorem not_delivered_later (hbind : P.BindsAad) (h : KeepsWindows P start evs) {j : Nat} (hij : i < j)
    (hi : DeliveredAt P start evs i frame) (hj : DeliveredAt P start evs j frame) : False := by
  obtain ⟨now, fromEp, peer, my, plain, hevi, hpeer, hmi, hopeni⟩ := delivered_move hi
  obtain ⟨now', fromEp', peer', my', plain', hevj, _, hmj, hopenj⟩ := delivered_move hj
  obtain ⟨_, k, mv, hk, hkj, hmv, hdrop⟩ := DataPlane.drops_of_opened_twice _ hbind hij hmi hmj hopeni hopenj
  obtain ⟨evk, hevk, rfl⟩ := exists_of_moves hmv
  exact h i j k now now' evk frame fromEp fromEp' peer hk hkj hevi hevj hpeer hevk (dropsPeer_of_drops P hdrop)

theorem run_data_delivered_once (hbind : P.BindsAad) (start : Start)
    (evs : List (Instant × Event)) (h : KeepsWindows P start evs) (frame : Bytes) (i j : Nat)
    (hi : DeliveredAt P start evs i frame) (hj : DeliveredAt P start evs j frame) : i = j := by
  rcases Nat.lt_trichotomy i j with hij | hij | hij
  · exact (not_delivered_later hbind h hij hi hj).elim
  · exact hij
  exact (not_delivered_later hbind h hij hj hi).elim

def dataFrame : Bytes := List.replicate 6 0 ++ [1] ++ padTag (dataAad 0x0A000002 0x0A000001)

/-- The frame comes, and with `between` after it once more. -/
def replayRun (between : List (Instant × Event)) : List (Instant × Event) :=
  [(1, .setCryptoKey (.filled 7)), (2, .updateRoute "10.0.0.2" secondEp (some "b") []),
    (3, .encrypted dataFrame secondEp)] ++ between ++ [(6, .encrypted dataFrame secondEp)]

theorem run_data_delivered_once_first : DeliveredAt .transparent firstNode (replayRun [(4, .flushLastSeenPending)]) 2
    dataFrame ∧ ∀ i, DeliveredAt .transparent firstNode (replayRun [(4, .flushLastSeenPending)]) i dataFrame → i =
    2 := by
  have hfirst : DeliveredAt .transparent firstNode (replayRun [(4, .flushLastSeenPending)]) 2 dataFrame :=
    ⟨3, secondEp, rfl, [1], by decide⟩
  refine ⟨hfirst, fun i hi => run_data_delivered_once transparent_bindsAad _ _ ?_ dataFrame i 2 hi hfirst⟩
  intro i j k now now' evk frame fromEp fromEp' peer hik hkj hi hj _ hk hdrop
  have hj5 : j < 5 := (List.getElem?_eq_some_iff.mp hj).1
  obtain rfl | rfl | rfl : k = 1 ∨ k = 2 ∨ k = 3 := by omega
  all_goals
    cases hk
    obtain ⟨vip, hvip, _⟩ := hdrop
    cases hvip

/-- The sender leaves and is learned again: the frame passes a second time. -/
theorem leave_readmits_data_frame : Primitives.transparent.BindsAad ∧ DeliveredAt .transparent firstNode
        (replayRun [(4, .leave "b" "10.0.0.2" 0), (5, .updateRoute "10.0.0.2" secondEp (some "b") [])]) 2 dataFrame ∧
      DeliveredAt .transparent firstNode
        (replayRun [(4, .leave "b" "10.0.0.2" 0), (5, .updateRoute "10.0.0.2" secondEp (some "b") [])]) 5 dataFrame :=
  ⟨transparent_bindsAad, ⟨3, secondEp, rfl, [1], by decide⟩, ⟨6, secondEp, rfl, [1], by decide⟩⟩

end Engine

end ConnectUnit
