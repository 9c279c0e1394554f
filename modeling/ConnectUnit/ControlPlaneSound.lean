import ConnectUnit.ReplaySound
import ConnectUnit.ControlPlane

/-!
# The control plane move by move

What each move does to the send counter, the cipher cache and the replay
table, and what a sealed or a dispatched frame says about its move.
-/

open Machine (emitAt emitAt_mem stateAt)

namespace ConnectUnit

variable {c c' : ControlCrypto} {aead : ControlPlaneAead} {n tie : Nat} {tag : Tag} {body q : Bytes}
variable {mv : ControlMove} {keys : List AeadKey} {srcKey : UInt64} {now : Instant}

namespace ControlCrypto

/-! ## The cipher cache -/

def CiphersDerived (P : Primitives) (c : ControlCrypto) : Prop :=
  ∀ key aead, c.controlCiphers.lookup key = some aead → deriveControlPlaneMaterial P key = some aead

structure Recached (P : Primitives) (c c' : ControlCrypto) : Prop where
  sendCtr : c'.ctrlSendCtr = c.ctrlSendCtr
  replay : c'.ctrlReplay = c.ctrlReplay
  limiter : c'.ctrlLimiter = c.ctrlLimiter
  derived : c.CiphersDerived P → c'.CiphersDerived P

section
variable {P : Primitives}

theorem Recached.refl (c : ControlCrypto) : Recached P c c := ⟨rfl, rfl, rfl, id⟩

theorem Recached.trans {c'' : ControlCrypto} (h : Recached P c c') (h' : Recached P c' c'') : Recached P c c'' :=
  ⟨h'.sendCtr.trans h.sendCtr, h'.replay.trans h.replay, h'.limiter.trans h.limiter, h'.derived ∘ h.derived⟩

theorem CiphersDerived.insert (h : c.CiphersDerived P) {key : Key}
    (hd : deriveControlPlaneMaterial P key = some aead) :
    CiphersDerived P { c with controlCiphers := c.controlCiphers.insert key aead } := by
  intro key' aead' hl
  rw [HashMap.lookup_insert_eq] at hl
  split at hl
  · rename_i hk
    cases hl
    rw [hk]; exact hd
  · exact h key' aead' hl

theorem controlPlaneCipher_recached (c : ControlCrypto) (key : AeadKey) :
    Recached P c (controlPlaneCipher P c key).1 := by
  unfold controlPlaneCipher
  split
  · exact .refl c
  split
  · rename_i hd
    exact ⟨rfl, rfl, rfl, fun h => h.insert hd⟩
  exact .refl c

theorem CiphersDerived.cipher (h : c.CiphersDerived P) (key : AeadKey) :
    (controlPlaneCipher P c key).2 = deriveControlPlaneMaterial P key.material := by
  unfold controlPlaneCipher
  split
  · rename_i hl
    exact (h _ _ hl).symm
  split
  · rename_i hd; exact hd.symm
  rename_i hd; exact hd.symm

/-! ## Sealing -/

theorem nextCtrlSendCounter_fst {n : Option Nat} (h : c.nextCtrlSendCounter = (c', n)) :
    c' = { c with ctrlSendCtr := c.ctrlSendCtr + 1 } := (congrArg Prod.fst h).symm

theorem nextCtrlSendCounter_snd (h : c.nextCtrlSendCounter = (c', some n)) :
    n = c.ctrlSendCtr.toNat ∧ n < 2 ^ 48 := by
  have hn : (if c.ctrlSendCtr.toNat ≥ 2 ^ 48 then none else some c.ctrlSendCtr.toNat) = some n := congrArg Prod.snd h
  split at hn
  · cases hn
  rename_i hlt
  cases hn
  exact ⟨rfl, Nat.not_le.mp hlt⟩

theorem sealWith_recached (cached : Bool) (c : ControlCrypto) (key : AeadKey) (tag : Tag) (body : Bytes) :
    Recached P { c with ctrlSendCtr := c.ctrlSendCtr + 1 } (sealWith P cached c key tag body).1 := by
  have hc := controlPlaneCipher_recached (P := P) { c with ctrlSendCtr := c.ctrlSendCtr + 1 } key
  unfold sealWith sealControlBody sealStatic
  split
  · split
    · rename_i hn
      obtain rfl := nextCtrlSendCounter_fst hn
      exact .refl _
    · rename_i hn
      obtain rfl := nextCtrlSendCounter_fst hn
      split <;> (rename_i hcipher; rw [hcipher] at hc; exact hc)
  split
  · rename_i hn
    obtain rfl := nextCtrlSendCounter_fst hn
    exact .refl _
  rename_i hn
  obtain rfl := nextCtrlSendCounter_fst hn
  split <;> exact .refl _

theorem sealWith_call (h : c.CiphersDerived P) {cached : Bool} {key : AeadKey}
    (hcall : (sealWith P cached c key tag body).2.1 = some (aead, n)) :
    deriveControlPlaneMaterial P key.material = some aead ∧ n = c.ctrlSendCtr.toNat ∧ n < 2 ^ 48 := by
  unfold sealWith sealControlBody sealStatic at hcall
  split at hcall
  · split at hcall
    · cases hcall
    · rename_i c' counter hn
      have hcounter := nextCtrlSendCounter_snd hn
      obtain rfl := nextCtrlSendCounter_fst hn
      have hcipher := CiphersDerived.cipher (c := { c with ctrlSendCtr := c.ctrlSendCtr + 1 }) h key
      split at hcall
      · cases hcall
      rename_i hc
      cases hcall
      rw [hc] at hcipher
      exact ⟨hcipher.symm, hcounter⟩
  split at hcall
  · cases hcall
  rename_i c' counter hn
  have hcounter := nextCtrlSendCounter_snd hn
  obtain rfl := nextCtrlSendCounter_fst hn
  split at hcall
  · cases hcall
  rename_i hd
  cases hcall
  exact ⟨hd, hcounter⟩

/-! ## Opening -/

theorem openWithKeys_recached (wire sealed : Bytes) (keys : List AeadKey) (c : ControlCrypto) :
    Recached P c (openWithKeys P wire sealed c keys).1 := by
  induction keys generalizing c with
  | nil => exact .refl c
  | cons key keys ih =>
    have hc := controlPlaneCipher_recached (P := P) c key
    unfold openWithKeys
    split
    · rename_i c' hcipher
      rw [hcipher] at hc
      exact hc.trans (ih c')
    rename_i c' aead hcipher
    rw [hcipher] at hc
    split
    · exact hc
    exact hc.trans (ih c')

theorem openSigned_cases (c : ControlCrypto) (keys : List AeadKey) (srcKey : UInt64) (body : Bytes) (now : Instant)
    (tie : Nat) :
    let counter := decodeWireCounter (body.take wireCounterLen)
    let r := openSigned P c keys srcKey body now tie
    r.1.ctrlSendCtr = c.ctrlSendCtr ∧ (c.CiphersDerived P → r.1.CiphersDerived P) ∧
      (r.2 = none ∧ r.1.ctrlReplay = c.ctrlReplay ∨
        (∃ opened, r.2 = some opened) ∧ c.ctrlReplay.allows srcKey counter = true ∧
          r.1.ctrlReplay = c.ctrlReplay.commit srcKey counter now tie) := by
  dsimp only
  have ho := openWithKeys_recached (P := P) (body.take wireCounterLen) (body.drop wireCounterLen) keys c
  unfold openSigned
  split
  · exact ⟨rfl, id, .inl ⟨rfl, rfl⟩⟩
  dsimp only
  split
  · rename_i hopen
    rw [hopen] at ho
    exact ⟨ho.sendCtr, ho.derived, .inl ⟨rfl, ho.replay⟩⟩
  rename_i c' key plain hopen
  rw [hopen] at ho
  have hreplay : c'.ctrlReplay = c.ctrlReplay := ho.replay
  split
  · exact ⟨ho.sendCtr, ho.derived, .inl ⟨rfl, hreplay⟩⟩
  split
  · exact ⟨ho.sendCtr, ho.derived, .inl ⟨rfl, hreplay⟩⟩
  split
  · exact ⟨ho.sendCtr, ho.derived, .inl ⟨rfl, hreplay⟩⟩
  rename_i hallows
  dsimp only at hallows ⊢
  rw [hreplay] at hallows ⊢
  exact ⟨ho.sendCtr, ho.derived, .inr ⟨⟨_, rfl⟩, by simpa using hallows, rfl⟩⟩

/-! ## Moves -/

structure WellFormed (P : Primitives) (c : ControlCrypto) : Prop where
  derived : c.CiphersDerived P
  withinBound : c.ctrlReplay.WithinBound

theorem ciphersDerived_of_empty (h : c.controlCiphers = ∅) : c.CiphersDerived P := by
  intro key aead hl
  rw [h] at hl
  cases hl

theorem wellFormed_new : (new now).WellFormed P where
  derived := ciphersDerived_of_empty rfl
  withinBound := CtrlReplayTable.withinBound_new

theorem WellFormed.step (h : c.WellFormed P) (mv : ControlMove) : (c.step P mv).1.WellFormed P := by
  cases mv with
  | keep => exact h
  | clearCiphers => exact ⟨ciphersDerived_of_empty rfl, h.withinBound⟩
  | reset => exact ⟨ciphersDerived_of_empty rfl, h.withinBound.clear⟩
  | send cached key tag body =>
    have hs := sealWith_recached (P := P) cached c key tag body
    exact ⟨hs.derived h.derived, hs.replay.symm ▸ h.withinBound⟩
  | deliver keys srcKey body now tie =>
    obtain ⟨_, hderived, hreplay⟩ := openSigned_cases (P := P) c keys srcKey body now tie
    refine ⟨hderived h.derived, ?_⟩
    rcases hreplay with ⟨_, hsame⟩ | ⟨_, _, hcommit⟩
    · exact hsame.symm ▸ h.withinBound
    exact hcommit.symm ▸ (h.withinBound.commit ..).withinBound

def SetsBack (c : ControlCrypto) : ControlMove → Prop
  | .reset => True
  | .send .. => c.ctrlSendCtr.toNat + 1 = 2 ^ 64
  | _ => False

theorem sendCtr_add_one {n : UInt64} (h : n.toNat + 1 ≠ 2 ^ 64) : (n + 1).toNat = n.toNat + 1 := by
  have hlt := n.toNat_lt
  rw [UInt64.toNat_add, UInt64.toNat_one]
  omega

theorem sendCtr_le_step (h : ¬ c.SetsBack mv) : c.ctrlSendCtr.toNat ≤ (c.step P mv).1.ctrlSendCtr.toNat := by
  cases mv with
  | keep => exact le_rfl
  | clearCiphers => exact le_rfl
  | reset => exact absurd trivial h
  | send cached key tag body =>
    have hs := (sealWith_recached (P := P) cached c key tag body).sendCtr
    simp only [step, hs, sendCtr_add_one h]
    exact Nat.le_succ _
  | deliver keys srcKey body now tie =>
    have hs := (openSigned_cases (P := P) c keys srcKey body now tie).1
    simp only [step, hs, le_refl]

theorem sealed_step (h : c.WellFormed P) (hs : .sealed aead n q ∈ (c.step P mv).2) : ∃ cached key tag body, mv = .send
    cached key tag body ∧ q = tag.bytes ++ body ∧ deriveControlPlaneMaterial P key.material = some aead ∧ n =
    c.ctrlSendCtr.toNat ∧ (c.step P mv).1.ctrlSendCtr.toNat = n + 1 := by
  cases mv with
  | send cached key tag body =>
    simp only [step] at hs
    unfold controlSealedOutput at hs
    split at hs
    · rename_i a n' hcall
      simp only [List.mem_singleton, ControlOutput.sealed.injEq] at hs
      obtain ⟨rfl, rfl, rfl⟩ := hs
      obtain ⟨hd, hn, hlt⟩ := sealWith_call h.derived hcall
      refine ⟨cached, key, tag, body, rfl, rfl, hd, hn, ?_⟩
      have hctr := (sealWith_recached (P := P) cached c key tag body).sendCtr
      simp only [step, hctr]
      rw [sendCtr_add_one (by omega), hn]
    · cases hs
  | deliver keys srcKey body now tie =>
    simp only [step] at hs
    unfold dispatchedOutput at hs
    split at hs
    · simp at hs
    cases hs
  | _ => cases hs

theorem dispatched_step (h : c.WellFormed P)
    (hd : .dispatched tag q ∈ (c.step P (.deliver keys srcKey body now tie)).2) : c.ctrlReplay.allows srcKey
    (decodeWireCounter (body.take wireCounterLen)) = true ∧
    (c.step P (.deliver keys srcKey body now tie)).1.ctrlReplay.allows srcKey
    (decodeWireCounter (body.take wireCounterLen)) = false := by
  obtain ⟨_, _, hcases⟩ := openSigned_cases (P := P) c keys srcKey body now tie
  simp only [step] at hd ⊢
  rcases hcases with ⟨hnone, _⟩ | ⟨_, hallows, hcommit⟩
  · rw [hnone] at hd; cases hd
  refine ⟨hallows, ?_⟩
  rw [hcommit, (h.withinBound.commit ..).self]
  exact .inl rfl

theorem blocked_step (h : c.WellFormed P) (hr : mv ≠ .reset) {key : UInt64} (hb : c.ctrlReplay.allows key n = false) :
    (c.step P mv).1.ctrlReplay.allows key n = false ∨ ∃ keys srcKey body now tie, mv = .deliver keys srcKey body now
    tie ∧ c.ctrlReplay.Evicts srcKey key ∧ ∃ tag q, .dispatched tag q ∈ (c.step P mv).2 := by
  cases mv with
  | keep => exact .inl hb
  | clearCiphers => exact .inl hb
  | reset => exact absurd rfl hr
  | send cached k tag body =>
    have hs := (sealWith_recached (P := P) cached c k tag body).replay
    exact .inl (hs.symm ▸ hb)
  | deliver keys srcKey body now tie =>
    obtain ⟨_, _, hcases⟩ := openSigned_cases (P := P) c keys srcKey body now tie
    simp only [step]
    rcases hcases with ⟨_, hsame⟩ | ⟨⟨⟨_, tag, q⟩, hopened⟩, _, hcommit⟩
    · exact .inl (hsame.symm ▸ hb)
    rw [hcommit, hopened]
    refine ((h.withinBound.commit ..).blocked hb).imp_right fun hevict => ?_
    exact ⟨keys, srcKey, body, now, tie, rfl, hevict, tag, q, List.mem_singleton.mpr rfl⟩

/-! ## Runs -/

section
variable (start : Instant) (mvs : List ControlMove)

theorem wellFormed_run {i : Nat} : (stateAt (step P) (new start) mvs i).WellFormed P :=
  Machine.invariant_all wellFormed_new (fun _ mv h => h.step mv) i

theorem evicts_of_dispatched_twice {i j : Nat} (hij : i < j) {keys' : List AeadKey} {now' : Instant} {tie' : Nat}
    {tag' : Tag} {q' : Bytes} (hmi : mvs[i]? = some (.deliver keys srcKey body now tie))
    (hmj : mvs[j]? = some (.deliver keys' srcKey body now' tie'))
    (hi : .dispatched tag q ∈ emitAt (step P) (new start) mvs i)
    (hj : .dispatched tag' q' ∈ emitAt (step P) (new start) mvs j)
    (hreset : ∀ k, i < k → k < j → mvs[k]? ≠ some .reset) : ∃ k keys src body' now tie, i < k ∧ k < j ∧ mvs[k]? = some
    (.deliver keys src body' now tie) ∧ (∃ tag q, .dispatched tag q ∈ emitAt (step P) (new start) mvs k) ∧
    (stateAt (step P) (new start) mvs k).ctrlReplay.Evicts src srcKey := by
  obtain ⟨mi, hmi', hi⟩ := emitAt_mem _ _ _ hi
  obtain ⟨mj, hmj', hj⟩ := emitAt_mem _ _ _ hj
  obtain rfl := Option.some.inj (hmi.symm.trans hmi')
  obtain rfl := Option.some.inj (hmj.symm.trans hmj')
  have hblocked := (dispatched_step (wellFormed_run start mvs) hi).2
  have hallowed := (dispatched_step (wellFormed_run start mvs) hj).1
  rw [← Machine.stateAt_succ _ _ _ hmi] at hblocked
  obtain ⟨k, mv, hk, hkj, hmv, hB, hB'⟩ := Machine.exists_break
    (B := fun c : ControlCrypto => c.ctrlReplay.allows srcKey (decodeWireCounter (body.take wireCounterLen)) = false)
    hij hblocked (by rw [hallowed]; exact Bool.noConfusion)
  have hne : mv ≠ .reset := fun h => hreset k hk hkj (h ▸ hmv)
  rcases blocked_step (wellFormed_run start mvs) hne hB with hstill | hevicts
  · exact absurd hstill hB'
  obtain ⟨keys'', src, body', now'', tie'', rfl, hevict, tag'', q'', hout⟩ := hevicts
  refine ⟨k, keys'', src, body', now'', tie'', hk, hkj, hmv, ⟨tag'', q'', ?_⟩, hevict⟩
  unfold emitAt
  rw [hmv]; exact hout

end

end

end ControlCrypto

end ConnectUnit
