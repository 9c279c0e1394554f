import ConnectUnit.ControlPlaneSound
import ConnectUnit.EngineSound

/-!
# Ciphers and nonces

A join may change the network key under the ciphers that were derived from the old one.
-/

open Machine (Each emitAt emitAt_mem interleave stateAt stateAt_succ)

namespace ConnectUnit

variable {P : Primitives} {e : Engine} {ev : Instant × Event} {i c j n : Nat} {aead : ControlPlaneAead}
variable {p q : Bytes}

namespace Engine

def firstNode : Start := ⟨.new 0, 0x0A000001, "a", 24, 0⟩

def secondEp : SocketAddr := .v4 0xC0A80102 7777

/-! ## Cached data ciphers -/

/-- A join is throttled, comes before any cipher is cached, or brings the key in force. -/
def KeepsCipherCache (e : Engine) (ev : Instant × Event) : Prop :=
  match ev.2 with
  | .prepareJoin key _ _ => e.joinThrottled ev.1 = true ∨ e.data.dataCiphers = ∅ ∨ e.dataPlanePrimaryKey = some key
  | _ => True

theorem keepsCache_iff : e.dataPlane.KeepsCache (e.dataMove P ev) ↔ e.KeepsCipherCache ev := by
  obtain ⟨now, ev⟩ := ev
  cases ev with
  | prepareJoin key target body =>
    simp only [dataMove, KeepsCipherCache]
    split
    · rename_i ht; simp [ht, DataPlane.KeepsCache]
    rename_i ht; simp [ht, DataPlane.KeepsCache, dataPlane]
  | addCryptoKey key =>
    simp only [dataMove, KeepsCipherCache]
    split <;> exact Iff.rfl
  | sendMenc dest payload =>
    simp only [dataMove, KeepsCipherCache]
    repeat (split; · exact Iff.rfl)
    exact Iff.rfl
  | encrypted body fromEp =>
    simp only [dataMove, KeepsCipherCache]
    repeat (split; · exact Iff.rfl)
    exact Iff.rfl
  | _ => exact Iff.rfl

theorem coherent_step (h : e.dataPlane.Coherent P)
    (hok : e.KeepsCipherCache ev) : (e.step P ev).1.dataPlane.Coherent P := by
  rw [(step_dataPlane P e ev).1]
  exact h.step ((keepsCache_iff).mpr hok)

theorem keepsCipherCache_of_coherent (hkdf : P.HkdfInjective)
    (h : e.dataPlane.Coherent P) (h' : (e.step P ev).1.dataPlane.Coherent P) : e.KeepsCipherCache ev := by
  rw [(step_dataPlane P e ev).1] at h'
  exact (keepsCache_iff).mp (h.keepsCache hkdf h')

theorem coherent_start {start : Start} : start.engine.dataPlane.Coherent P := by
  intro s r aead h
  cases h

/-- The cached data ciphers match the key in force along every run whose joins keep the cache, and
where HKDF is injective along no other. -/
theorem run_ciphers_match_key (P : Primitives) (start : Start) (evs : List (Instant × Event)) :
    (Each (step P) start.engine evs KeepsCipherCache →
      ∀ i, (stateAt (step P) start.engine evs i).dataPlane.Coherent P) ∧
    (P.HkdfInjective → (∀ i, (stateAt (step P) start.engine evs i).dataPlane.Coherent P) →
      Each (step P) start.engine evs KeepsCipherCache) := by
  constructor
  · exact Machine.invariant (P := fun e : Engine => e.dataPlane.Coherent P) coherent_start
      fun _ _ hok h => coherent_step h hok
  intro hkdf h i ev hev
  have hnext := h (i + 1)
  rw [stateAt_succ _ _ _ hev] at hnext
  exact keepsCipherCache_of_coherent hkdf (h i) hnext

theorem run_ciphers_match_key_same_key : ∀ i, (stateAt (step .transparent) firstNode.engine
      [(1, .setCryptoKey (.filled 7)), (2, .encryptTo 0x0A000002 [1]), (3, .prepareJoin (.filled 7) none [])] i
      ).dataPlane.Coherent .transparent := by
  refine (run_ciphers_match_key _ _ _).1 ?_
  intro k ev hk
  have hlt : k < 3 := (List.getElem?_eq_some_iff.mp hk).1
  obtain rfl | rfl | rfl : k = 0 ∨ k = 1 ∨ k = 2 := by omega
  · cases hk; trivial
  · cases hk; trivial
  cases hk; exact .inr (.inr rfl)

theorem join_keeps_stale_cipher : ¬ (stateAt (step .transparent) firstNode.engine
      [(1, .setCryptoKey (.filled 7)), (2, .encryptTo 0x0A000002 [1]), (3, .prepareJoin (.filled 8) none [])] 3
      ).dataPlane.Coherent .transparent := by
  intro h
  obtain ⟨key, hp, hd⟩ := h 0x0A000001 0x0A000002
    ⟨List.replicate 16 7, List.replicate 16 7 ++ dataInfo 0x0A000001 0x0A000002⟩ rfl
  cases hp
  exact absurd hd (by decide)

/-! ## Data frames of one engine -/

def EncryptsTo (P : Primitives) (d : UInt32) (aead : DataPlaneAead) (e : Engine) (ev : Instant × Event) : Prop :=
  ∃ s payload, e.dataMove P ev = .encrypt s d payload ∧ e.dataPlane.cipherFor P s d = some aead

section
variable (P : Primitives) (start : Start) (evs : List (Instant × Event))

/-- No two calls of a data cipher with different plaintexts use the same key, salt and counter. -/
def DataNoncesUnique : Prop :=
  ∀ i j aead c p q, .sealData aead c p ∈ emitAt (step P) start.engine evs i →
    .sealData aead c q ∈ emitAt (step P) start.engine evs j → p = q

/-- Between two frames to one destination under one cipher, its send counter is never lost. -/
def KeepsSendCounters : Prop :=
  ∀ i j k evi evj evk d aead, i < k → k < j →
    evs[i]? = some evi → (stateAt (step P) start.engine evs i).EncryptsTo P d aead evi →
    evs[j]? = some evj → (stateAt (step P) start.engine evs j).EncryptsTo P d aead evj →
    evs[k]? = some evk → ¬ (stateAt (step P) start.engine evs k).DropsPeer P d evk

end

section
variable {P : Primitives} {start : Start} {evs : List (Instant × Event)}

theorem sealData_move {aead : DataPlaneAead} (h : .sealData aead c p ∈ emitAt (step P) start.engine evs i) :
    .sealed aead c p ∈ emitAt (DataPlane.step P) .new (dataMoves P start evs) i :=
  (simulates_dataPlane P).mem_emitAt h rfl

theorem encryptsTo_of_move {s d : UInt32} {aead : DataPlaneAead}
    (h : (dataMoves P start evs)[i]? = some (.encrypt s d p))
    (hc : (stateAt (DataPlane.step P) .new (dataMoves P start evs) i).cipherFor P s d = some aead) : ∃ ev,
    evs[i]? = some ev ∧ (stateAt (step P) start.engine evs i).EncryptsTo P d aead ev := by
  obtain ⟨ev, hev, hmv⟩ := Machine.exists_of_moves h
  rw [← dataPlane_start, (simulates_dataPlane P).stateAt] at hc
  exact ⟨ev, hev, s, p, hmv, hc⟩

theorem eq_of_sealData_lt (hkdf : P.HkdfInjective) (h : KeepsSendCounters P start evs) (hij : i < j)
    {aead : DataPlaneAead} (hi : .sealData aead c p ∈ emitAt (step P) start.engine evs i)
    (hj : .sealData aead c q ∈ emitAt (step P) start.engine evs j) : p = q := by
  obtain ⟨s, d, ⟨hmi, hci⟩, ⟨hmj, hcj⟩, k, mv, hk, hkj, hmv, hdrop⟩ :=
    DataPlane.drops_of_sealed_twice _ hkdf hij (sealData_move hi) (sealData_move hj)
  obtain ⟨evi, hevi, hsi⟩ := encryptsTo_of_move hmi hci
  obtain ⟨evj, hevj, hsj⟩ := encryptsTo_of_move hmj hcj
  obtain ⟨evk, hevk, rfl⟩ := Machine.exists_of_moves hmv
  exact absurd (dropsPeer_of_drops P hdrop) (h i j k evi evj evk d aead hk hkj hevi hsi hevj hsj hevk)

theorem eq_of_sealData_same {aead : DataPlaneAead} (hi : .sealData aead c p ∈ emitAt (step P) start.engine evs i)
    (hj : .sealData aead c q ∈ emitAt (step P) start.engine evs i) : p = q := by
  obtain ⟨mv, hmv, hp⟩ := emitAt_mem _ _ _ (sealData_move hi)
  obtain ⟨mv', hmv', hq⟩ := emitAt_mem _ _ _ (sealData_move hj)
  obtain rfl := Option.some.inj (hmv.symm.trans hmv')
  obtain ⟨s, d, rfl, _⟩ := DataPlane.sealed_step hp
  obtain ⟨s', d', hmove, _⟩ := DataPlane.sealed_step hq
  cases hmove
  rfl

end

theorem run_data_nonces_unique (hkdf : P.HkdfInjective) (start : Start)
    (evs : List (Instant × Event)) (h : KeepsSendCounters P start evs) : DataNoncesUnique P start evs := by
  intro i j aead c p q hi hj
  rcases Nat.lt_trichotomy i j with hij | rfl | hij
  · exact eq_of_sealData_lt hkdf h hij hi hj
  · exact eq_of_sealData_same hi hj
  exact (eq_of_sealData_lt hkdf h hij hj hi).symm

def twoFrames : List (Instant × Event) :=
  [(1, .setCryptoKey (.filled 7)), (2, .encryptTo 0x0A000002 [1]), (3, .encryptTo 0x0A000002 [2])]

theorem run_data_nonces_unique_two_frames :
    KeepsSendCounters .transparent firstNode twoFrames ∧ DataNoncesUnique .transparent firstNode twoFrames := by
  have hkeep : KeepsSendCounters .transparent firstNode twoFrames := by
    intro i j k evi evj evk d aead hik hkj _ _ hj _ hk hdrop
    have hj3 : j < 3 := (List.getElem?_eq_some_iff.mp hj).1
    obtain rfl : k = 1 := by omega
    cases hk
    obtain ⟨vip, hvip, _⟩ := hdrop
    cases hvip
  exact ⟨hkeep, run_data_nonces_unique transparent_hkdfInjective _ _ hkeep⟩

/-- The second node leaves and is learned again: the frames before and after share a nonce. -/
theorem leave_reuses_data_nonce : Primitives.transparent.HkdfInjective ∧ ¬ DataNoncesUnique .transparent firstNode
      [(1, .setCryptoKey (.filled 7)), (2, .updateRoute "10.0.0.2" secondEp (some "b") []),
        (3, .sendMenc secondEp [1]), (4, .leave "b" "10.0.0.2" 0),
        (5, .updateRoute "10.0.0.2" secondEp (some "b") []), (6, .sendMenc secondEp [2])] := by
  refine ⟨transparent_hkdfInjective, fun h => ?_⟩
  have hsame := h 2 5 ⟨List.replicate 16 7, List.replicate 16 7 ++ dataInfo 0x0A000001 0x0A000002⟩ 0 [1] [2]
    (by decide) (by decide)
  exact absurd hsame (by decide)

/-! ## Control frames of all members -/

def sealsUnder (P : Primitives) (e : Engine) (ev : Instant × Event) : Option ControlPlaneAead :=
  match e.controlMove ev with
  | .send _ key _ _ => deriveControlPlaneMaterial P key.material
  | _ => none

section
variable {ι : Type} [DecidableEq ι] (P : Primitives) (start : ι → Start) (evs : List (ι × (Instant × Event)))

def membersAt (i : Nat) : ι → Engine :=
  stateAt (interleave (step P)) (fun m => (start m).engine) evs i

def membersEmitAt (i : Nat) : List (ι × Output) :=
  emitAt (interleave (step P)) (fun m => (start m).engine) evs i

/-- No two calls of a control cipher with different plaintexts use the same key, salt and counter. -/
def ControlNoncesUnique : Prop :=
  ∀ i j m m' aead n p q, (m, .sealControl aead n p) ∈ membersEmitAt P start evs i →
    (m', .sealControl aead n q) ∈ membersEmitAt P start evs j → p = q

/-- Two frames under one control cipher are sealed by one member, whose send counter is not set back
between them. -/
def OneSealer : Prop :=
  ∀ i j m m' ev ev' aead, i < j → evs[i]? = some (m, ev) → evs[j]? = some (m', ev') →
    (membersAt P start evs i m).sealsUnder P ev = some aead →
    (membersAt P start evs j m').sealsUnder P ev' = some aead →
    m = m' ∧ ∀ k evk, i < k → k < j → evs[k]? = some (m, evk) →
      ¬ (membersAt P start evs k m).control.SetsBack ((membersAt P start evs k m).controlMove evk)

end

theorem sealControl_step (h : e.control.WellFormed P) (hs : .sealControl aead n q ∈ (e.step P ev).2) : e.sealsUnder P
    ev = some aead ∧ n = e.control.ctrlSendCtr.toNat ∧ (e.step P ev).1.control.ctrlSendCtr.toNat = n + 1 ∧ ∃ cached
    key tag body, e.controlMove ev = .send cached key tag body ∧ q = tag.bytes ++ body := by
  obtain ⟨hstate, hemit⟩ := step_control P e ev
  have hsealed : .sealed aead n q ∈ (e.control.step P (e.controlMove ev)).2 :=
    hemit ▸ List.mem_filterMap.mpr ⟨_, hs, rfl⟩
  obtain ⟨cached, key, tag, body, hmv, hq, hd, hn, hnext⟩ := ControlCrypto.sealed_step h hsealed
  refine ⟨?_, hn, hstate ▸ hnext, cached, key, tag, body, hmv, hq⟩
  unfold sealsUnder
  rw [hmv]; exact hd

section
variable {ι : Type} [DecidableEq ι] {P : Primitives} {start : ι → Start} {evs : List (ι × (Instant × Event))}
variable {m : ι}

theorem wellFormed_members (i : Nat) : ∀ m, (membersAt P start evs i m).control.WellFormed P := by
  refine Machine.invariant_all (P := fun sys : ι → Engine => ∀ m, (sys m).control.WellFormed P) ?_ ?_ i
  · exact fun m => ControlCrypto.wellFormed_new
  intro sys a h m
  refine Machine.interleave_member (B := fun e : Engine => e.control.WellFormed P) (h m) fun _ => ?_
  rw [(step_control P (sys m) a.2).1]
  exact (h m).step _

theorem sealControl_event (h : (m, .sealControl aead n p) ∈ membersEmitAt P start evs i) : ∃ ev, evs[i]? = some
    (m, ev) ∧ .sealControl aead n p ∈ ((membersAt P start evs i m).step P ev).2 := by
  obtain ⟨⟨m', ev⟩, hev, hmem⟩ := emitAt_mem _ _ _ h
  obtain ⟨rfl, hout⟩ := Machine.mem_interleave hmem
  exact ⟨ev, hev, hout⟩

theorem sendCtr_passed (hij : i < j) (hi : n < (membersAt P start evs (i + 1) m).control.ctrlSendCtr.toNat)
    (hkeep : ∀ k evk, i < k → k < j → evs[k]? = some (m, evk) →
      ¬ (membersAt P start evs k m).control.SetsBack ((membersAt P start evs k m).controlMove evk)) :
    n < (membersAt P start evs j m).control.ctrlSendCtr.toNat := by
  refine Machine.persists (B := fun sys : ι → Engine => n < (sys m).control.ctrlSendCtr.toNat) hij hi ?_
  intro k ev hik hkj hk hB
  obtain ⟨m', evk⟩ := ev
  refine Machine.interleave_member (B := fun e : Engine => n < e.control.ctrlSendCtr.toNat) hB fun hm => ?_
  obtain rfl : m' = m := hm
  rw [(step_control P _ evk).1]
  exact Nat.lt_of_lt_of_le hB (ControlCrypto.sendCtr_le_step (hkeep k evk hik hkj hk))

theorem eq_of_sealControl_lt (h : OneSealer P start evs) (hij : i < j) {m' : ι}
    (hi : (m, .sealControl aead n p) ∈ membersEmitAt P start evs i)
    (hj : (m', .sealControl aead n q) ∈ membersEmitAt P start evs j) : p = q := by
  obtain ⟨ev, hev, hout⟩ := sealControl_event hi
  obtain ⟨ev', hev', hout'⟩ := sealControl_event hj
  obtain ⟨hsi, _, hnext, _⟩ := sealControl_step (wellFormed_members i m) hout
  obtain ⟨hsj, hn, _⟩ := sealControl_step (wellFormed_members j m') hout'
  obtain ⟨rfl, hkeep⟩ := h i j m m' ev ev' aead hij hev hev' hsi hsj
  have hpassed : n < (membersAt P start evs (i + 1) m).control.ctrlSendCtr.toNat := by
    unfold membersAt at *
    rw [stateAt_succ _ _ _ hev, Machine.interleave_self, hnext]
    exact Nat.lt_succ_self n
  have := sendCtr_passed hij hpassed hkeep
  omega

theorem eq_of_sealControl_same {m' : ι} (hi : (m, .sealControl aead n p) ∈ membersEmitAt P start evs i)
    (hj : (m', .sealControl aead n q) ∈ membersEmitAt P start evs i) : p = q := by
  obtain ⟨ev, hev, hout⟩ := sealControl_event hi
  obtain ⟨ev', hev', hout'⟩ := sealControl_event hj
  cases hev.symm.trans hev'
  obtain ⟨_, _, _, _, _, tag, body, hmv, hp⟩ := sealControl_step (wellFormed_members i m) hout
  obtain ⟨_, _, _, _, _, tag', body', hmv', hq⟩ := sealControl_step (wellFormed_members i m) hout'
  cases hmv.symm.trans hmv'
  rw [hp, hq]

end

theorem run_control_nonces_unique {ι : Type} [DecidableEq ι] (P : Primitives) (start : ι → Start)
    (evs : List (ι × (Instant × Event))) (h : OneSealer P start evs) : ControlNoncesUnique P start evs := by
  intro i j m m' aead n p q hi hj
  rcases Nat.lt_trichotomy i j with hij | rfl | hij
  · exact eq_of_sealControl_lt h hij hi hj
  · exact eq_of_sealControl_same hi hj
  exact (eq_of_sealControl_lt h hij hj hi).symm

def twoNodes : Bool → Start
  | false => firstNode
  | true => ⟨.new 0, 0x0A000002, "b", 24, 0⟩

def oneSender : List (Bool × (Instant × Event)) :=
  [(false, 1, .setCryptoKey (.filled 7)), (false, 2, .sendCtrlSignedTo secondEp pktJoin [1]),
    (true, 3, .setCryptoKey (.filled 7)), (false, 4, .sendCtrlSignedTo secondEp pktJoin [2])]

theorem run_control_nonces_unique_one_sender :
    OneSealer .transparent twoNodes oneSender ∧ ControlNoncesUnique .transparent twoNodes oneSender := by
  have hone : OneSealer .transparent twoNodes oneSender := by
    intro i j m m' ev ev' aead hij hi hj hsi hsj
    have hj4 : j < 4 := (List.getElem?_eq_some_iff.mp hj).1
    -- only the second and the last event seal a frame
    obtain rfl | rfl | rfl : i = 0 ∨ i = 1 ∨ i = 2 := by omega
    · cases hi; cases hsi
    · obtain rfl | rfl : j = 2 ∨ j = 3 := by omega
      · cases hj; cases hsj
      · cases hi
        cases hj
        refine ⟨rfl, fun k evk hik hkj hk => ?_⟩
        obtain rfl : k = 2 := by omega
        cases hk
    · cases hi; cases hsi
  exact ⟨hone, run_control_nonces_unique _ _ _ hone⟩

theorem members_reuse_control_nonce : ¬ ControlNoncesUnique .transparent twoNodes
      [(false, 1, .setCryptoKey (.filled 7)), (true, 2, .setCryptoKey (.filled 7)),
        (false, 3, .sendCtrlSignedTo secondEp pktJoin [1]), (true, 4, .sendCtrlSignedTo secondEp pktJoin [2])] := by
  intro h
  have hsame := h 2 3 false true ⟨List.replicate 16 7, List.replicate 16 7 ++ ctrlInfo⟩ 0 (pktJoin.bytes ++ [1])
    (pktJoin.bytes ++ [2]) (by decide) (by decide)
  exact absurd hsame (by decide)

end Engine

end ConnectUnit
