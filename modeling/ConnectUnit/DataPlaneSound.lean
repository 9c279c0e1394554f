import ConnectUnit.DataPlane

/-!
# Invariants of the data plane

What one move does to the counter, the window and the cached ciphers of each
peer, and what follows for whole runs: no nonce is used twice, no frame is
opened twice and the cache holds the ciphers of the current key, as long as
no move drops what these rest on.
-/

open Machine (emitAt emitAt_mem exists_break stateAt stateAt_succ)

namespace ConnectUnit

variable {pair : UInt32 × UInt32} {aead : DataPlaneAead} {d d' : DataCrypto} {s r x peer my : UInt32}
variable {payload body plain q : Bytes} {c : Nat} {mv : DataMove} {p : DataPlane}

namespace DataCrypto

variable (P : Primitives) (primary : Option Key)

/-! ## Forgetting peers -/

variable (vips : List UInt32)

theorem forget_sendCtr (d : DataCrypto) (x : UInt32) :
    (vips.foldl clearDataCryptoForVip d).dataSendCtr.lookup x = if x ∈ vips then none else d.dataSendCtr.lookup
    x := by
  induction vips generalizing d with
  | nil => simp
  | cons v vips ih =>
    rw [List.foldl_cons, ih]
    simp only [clearDataCryptoForVip, HashMap.lookup_erase_eq, List.mem_cons]
    by_cases hx : x ∈ vips
    · simp [hx]
    by_cases hv : x = v <;> simp [hx, hv]

theorem forget_replay (d : DataCrypto) (x : UInt32) :
    (vips.foldl clearDataCryptoForVip d).dataReplay.lookup x = if x ∈ vips then none else d.dataReplay.lookup x := by
  induction vips generalizing d with
  | nil => simp
  | cons v vips ih =>
    rw [List.foldl_cons, ih]
    simp only [clearDataCryptoForVip, HashMap.lookup_erase_eq, List.mem_cons]
    by_cases hx : x ∈ vips
    · simp [hx]
    by_cases hv : x = v <;> simp [hx, hv]

theorem forget_ciphers (d : DataCrypto)
    (h : (vips.foldl clearDataCryptoForVip d).dataCiphers.lookup pair = some aead) :
    d.dataCiphers.lookup pair = some aead := by
  refine List.foldlRecOn (motive := fun d' : DataCrypto => d'.dataCiphers.lookup pair = some aead → _) vips _ id
    (fun d' hprev v _ h' => hprev ?_) h
  simp only [clearDataCryptoForVip, HashMap.lookup_retain, Option.filter_eq_some_iff] at h'
  exact h'.1

/-! ## The cipher cache -/

theorem dataPlaneCipher_fst (d : DataCrypto) (s r : UInt32) : (dataPlaneCipher P primary d s r).1.dataSendCtr =
    d.dataSendCtr ∧ (dataPlaneCipher P primary d s r).1.dataReplay = d.dataReplay := by
  unfold dataPlaneCipher
  split
  · exact ⟨rfl, rfl⟩
  split <;> exact ⟨rfl, rfl⟩

theorem dataPlaneCipher_snd (h : (dataPlaneCipher P primary d s r).2 = some aead) : d.dataCiphers.lookup (s, r) = some
    aead ∨ ∃ key, primary = some key ∧ deriveDataPlaneMaterial P key s r = some aead := by
  unfold dataPlaneCipher at h
  split at h
  · rename_i hl; cases h; exact .inl hl
  split at h
  · rename_i hd
    cases h
    exact .inr (Option.bind_eq_some_iff.mp hd)
  · cases h

theorem dataPlaneCipher_snd_congr (h : d.dataCiphers = d'.dataCiphers) (s r : UInt32) :
    (dataPlaneCipher P primary d s r).2 = (dataPlaneCipher P primary d' s r).2 := by
  unfold dataPlaneCipher
  rw [h]
  split
  · rfl
  split <;> rfl

theorem dataPlaneCipher_cached (h : (dataPlaneCipher P primary d s r).1.dataCiphers.lookup pair = some aead) :
    d.dataCiphers.lookup pair = some aead ∨ pair = (s, r) ∧ ∃ key, primary = some key ∧ deriveDataPlaneMaterial P key
    s r = some aead := by
  unfold dataPlaneCipher at h
  split at h
  · exact .inl h
  split at h
  · rename_i hd
    rw [HashMap.lookup_insert_eq] at h
    split at h
    · rename_i hp; cases h; exact .inr ⟨hp, Option.bind_eq_some_iff.mp hd⟩
    exact .inl h
  · exact .inl h

/-! ## Encrypting and opening -/

theorem nextDataSendCounter_ciphers (d : DataCrypto) (x : UInt32) : (d.nextDataSendCounter x).1.dataCiphers =
    d.dataCiphers ∧ (d.nextDataSendCounter x).1.dataReplay = d.dataReplay := by
  unfold nextDataSendCounter
  dsimp only
  split <;> exact ⟨rfl, rfl⟩

theorem encrypt_fst : (encryptFramedPacketReuse P primary d s x payload).1 = (d.nextDataSendCounter x).1 ∨
    (encryptFramedPacketReuse P primary d s x payload).1 =
    (dataPlaneCipher P primary (d.nextDataSendCounter x).1 s x).1 := by
  unfold encryptFramedPacketReuse
  split
  · rename_i hn; exact .inl (by rw [hn])
  rename_i hn
  rw [hn]
  split
  · rename_i hc; exact .inr (by rw [hc])
  rename_i hc; exact .inr (by rw [hc])

theorem encrypt_sendCtr :
    (encryptFramedPacketReuse P primary d s x payload).1.dataSendCtr = (d.nextDataSendCounter x).1.dataSendCtr := by
  rcases encrypt_fst P primary with h | h
  · rw [h]
  rw [h, (dataPlaneCipher_fst P primary _ s x).1]

theorem encrypt_replay : (encryptFramedPacketReuse P primary d s x payload).1.dataReplay = d.dataReplay := by
  rcases encrypt_fst P primary with h | h
  · rw [h, (nextDataSendCounter_ciphers d x).2]
  rw [h, (dataPlaneCipher_fst P primary _ s x).2, (nextDataSendCounter_ciphers d x).2]

theorem encrypt_call (h : (encryptFramedPacketReuse P primary d s x payload).2.1 = some (aead, c)) : c =
    (d.dataSendCtr.lookup x).getD 0 ∧ (d.nextDataSendCounter x).1.dataSendCtr.lookup x = some (c + 1) ∧
    (dataPlaneCipher P primary d s x).2 = some aead := by
  unfold encryptFramedPacketReuse at h
  split at h
  · cases h
  rename_i d' c' hn
  split at h
  · cases h
  rename_i d'' aead' hc
  cases h
  have hcipher := dataPlaneCipher_snd_congr P primary (nextDataSendCounter_ciphers d x).1 s x
  rw [hn, hc] at hcipher
  unfold nextDataSendCounter at hn ⊢
  dsimp only at hn ⊢
  split at hn
  · cases hn
  rename_i hlt
  cases hn
  exact ⟨rfl, by rw [if_neg hlt, HashMap.lookup_insert_eq, if_pos rfl], hcipher.symm⟩

theorem encrypt_frame {frame : Bytes} (h : (encryptFramedPacketReuse P primary d s x payload).2.2 = some frame) : ∃
    aead c, (encryptFramedPacketReuse P primary d s x payload).2.1 = some (aead, c) ∧ aead.encryptFramedPacketInto P c
    (dataAad s x) payload = some frame := by
  unfold encryptFramedPacketReuse at *
  split at h
  · cases h
  split at h
  · cases h
  exact ⟨_, _, rfl, h⟩

theorem openFrame_sendCtr : (openFrame P primary d peer my body).1.dataSendCtr = d.dataSendCtr := by
  have hc := (dataPlaneCipher_fst P primary d peer my).1
  unfold openFrame
  dsimp only
  split
  · rfl
  split
  · rename_i h; rw [h] at hc; exact hc
  rename_i h
  rw [h] at hc
  split <;> exact hc

theorem openFrame_ciphers : (openFrame P primary d peer my body).1.dataCiphers = d.dataCiphers ∨
    (openFrame P primary d peer my body).1.dataCiphers = (dataPlaneCipher P primary d peer my).1.dataCiphers := by
  unfold openFrame
  dsimp only
  split
  · exact .inl rfl
  split
  · rename_i h; exact .inr (by rw [h])
  rename_i h
  refine .inr ?_
  rw [h]
  split <;> rfl

theorem openFrame_replay :
    ((openFrame P primary d peer my body).1.dataReplay = d.dataReplay ∧ (openFrame P primary d peer my body).2 = none)
    ∨ (openFrame P primary d peer my body).1.dataReplay =
    (d.commitReplay peer (decodeWireCounter (body.take wireCounterLen))).dataReplay := by
  have hc := (dataPlaneCipher_fst P primary d peer my).2
  unfold openFrame
  dsimp only
  split
  · exact .inl ⟨rfl, rfl⟩
  split
  · rename_i h; rw [h] at hc; exact .inl ⟨hc, rfl⟩
  rename_i h
  rw [h] at hc
  split
  · refine .inr ?_
    unfold commitReplay
    rw [show _ = _ from hc]
  · exact .inl ⟨hc, rfl⟩

theorem openFrame_some (h : (openFrame P primary d peer my body).2 = some plain) : d.replayAllows peer
    (decodeWireCounter (body.take wireCounterLen)) = true ∧ ∃ aead, (dataPlaneCipher P primary d peer my).2 = some
    aead ∧ aead.decryptFramedPayloadInto P (body.take wireCounterLen) (dataAad peer my) (body.drop wireCounterLen) =
    some plain := by
  unfold openFrame at h
  dsimp only at h
  split at h
  · cases h
  rename_i hr
  split at h
  · cases h
  rename_i aead hc
  split at h
  · rename_i hd
    cases h
    exact ⟨by simpa using hr, aead, by rw [hc], hd⟩
  · cases h

theorem openFrame_accepts (hr : d.replayAllows peer (decodeWireCounter (body.take wireCounterLen)) = true)
    (hc : (dataPlaneCipher P primary d peer my).2 = some aead)
    (hd : aead.decryptFramedPayloadInto P (body.take wireCounterLen) (dataAad peer my) (body.drop wireCounterLen) =
      some plain) :
    (openFrame P primary d peer my body).2 = some plain := by
  unfold openFrame
  dsimp only
  rw [hr]
  split
  · rename_i hno; cases hno
  split
  · rename_i hcipher; rw [hcipher] at hc; cases hc
  rename_i hcipher
  rw [hcipher] at hc
  cases hc
  rw [hd]

theorem replayAllows_congr (h : d.dataReplay = d'.dataReplay) : d.replayAllows x c = d'.replayAllows x c := by
  unfold replayAllows
  rw [h]

theorem replayAllows_commitReplay (d : DataCrypto) (peer x : UInt32) (c c' : Nat) :
    (d.commitReplay peer c').replayAllows x c = false ↔ (x = peer ∧ (c = c' ∨ c + dataReplayWindowBits ≤ c')) ∨
    d.replayAllows x c = false := by
  unfold replayAllows commitReplay
  dsimp only
  rw [HashMap.lookup_insert_eq]
  by_cases hx : x = peer
  · subst hx
    rw [if_pos rfl]
    simp only [ReplayWindow.allows_eq_false_iff, true_and]
    rw [ReplayWindow.blocks_commit (by decide)]
    cases h : d.dataReplay.lookup x with
    | none => simp [ReplayWindow.not_blocks_new]
    | some w => simp [ReplayWindow.allows_eq_false_iff, or_assoc]
  · simp [hx]

end DataCrypto

namespace DataPlane

variable {P : Primitives}

/-! ## Moves -/

theorem counter_le_step (p : DataPlane) {d : UInt32} (h : ¬ Drops d mv) :
    p.counter d ≤ (p.step P mv).1.counter d := by
  cases mv with
  | keep => exact le_rfl
  | install key => exact absurd trivial h
  | rekey key => exact le_rfl
  | forget vips =>
    have hd : d ∉ vips := h
    unfold counter step
    rw [DataCrypto.forget_sendCtr, if_neg hd]
  | encrypt s x payload =>
    unfold counter step
    rw [DataCrypto.encrypt_sendCtr]
    unfold DataCrypto.nextDataSendCounter
    dsimp only
    split
    · exact le_rfl
    rw [HashMap.lookup_insert_eq]
    split
    · rename_i hd; subst hd; simp
    exact le_rfl
  | receive peer my body =>
    unfold counter step
    rw [DataCrypto.openFrame_sendCtr]

theorem blocked_step {d : UInt32} (h : ¬ Drops d mv) (hb : p.Blocked d c) : (p.step P mv).1.Blocked d c := by
  cases mv with
  | keep => exact hb
  | install key => exact absurd trivial h
  | rekey key => exact hb
  | forget vips =>
    have hd : d ∉ vips := h
    unfold Blocked DataCrypto.replayAllows step at *
    rw [DataCrypto.forget_replay, if_neg hd]; exact hb
  | encrypt s x payload =>
    exact (DataCrypto.replayAllows_congr (DataCrypto.encrypt_replay P p.primary)).trans hb
  | receive peer my body =>
    rcases DataCrypto.openFrame_replay P p.primary with h' | h'
    · exact (DataCrypto.replayAllows_congr h'.1).trans hb
    exact (DataCrypto.replayAllows_congr h').trans
      ((DataCrypto.replayAllows_commitReplay p.data peer d c _).mpr (.inr hb))

theorem sealed_step (h : .sealed aead c q ∈ (p.step P mv).2) : ∃ s d, mv = .encrypt s d q ∧ p.cipherFor P s d = some
    aead ∧ c = p.counter d ∧ (p.step P mv).1.counter d = c + 1 := by
  cases mv with
  | encrypt s d payload =>
    simp only [step] at h
    unfold sealedOutput at h
    split at h
    · rename_i a c' hcall
      simp only [List.mem_singleton, DataOutput.sealed.injEq] at h
      obtain ⟨rfl, rfl, rfl⟩ := h
      obtain ⟨hc, hnext, hcipher⟩ := DataCrypto.encrypt_call P p.primary hcall
      refine ⟨s, d, rfl, hcipher, hc, ?_⟩
      unfold counter step
      rw [DataCrypto.encrypt_sendCtr, hnext]; rfl
    · cases h
  | receive peer my body =>
    simp only [step] at h
    unfold openedOutput at h
    split at h
    · simp at h
    cases h
  | _ => cases h

theorem opened_step (h : .opened q ∈ (p.step P mv).2) : ∃ peer my body, mv = .receive peer my body ∧ ¬ p.Blocked peer
    (decodeWireCounter (body.take wireCounterLen)) ∧ (p.step P mv).1.Blocked peer
    (decodeWireCounter (body.take wireCounterLen)) ∧ ∃ aead : DataPlaneAead, aead.decryptFramedPayloadInto P
    (body.take wireCounterLen) (dataAad peer my) (body.drop wireCounterLen) = some q := by
  cases mv with
  | receive peer my body =>
    simp only [step] at h
    unfold openedOutput at h
    split at h
    · rename_i plain hopen
      simp only [List.mem_singleton, DataOutput.opened.injEq] at h
      subst h
      obtain ⟨hallow, aead, _, hdec⟩ := DataCrypto.openFrame_some P p.primary hopen
      refine ⟨peer, my, body, rfl, by simp [Blocked, hallow], ?_, aead, hdec⟩
      rcases DataCrypto.openFrame_replay P p.primary with h' | h'
      · rw [hopen] at h'; cases h'.2
      exact (DataCrypto.replayAllows_congr h').trans
        ((DataCrypto.replayAllows_commitReplay p.data peer peer _ _).mpr (.inl ⟨rfl, .inl rfl⟩))
    · cases h
  | encrypt s d payload =>
    simp only [step] at h
    unfold sealedOutput at h
    split at h
    · simp at h
    cases h
  | _ => cases h

/-! ## Cached ciphers -/

def CacheDerived (P : Primitives) (p : DataPlane) : Prop :=
  ∀ s r aead, p.data.dataCiphers.lookup (s, r) = some aead → ∃ key, deriveDataPlaneMaterial P key s r = some aead

/-- Every cached cipher is the one that the primary key gives for its pair of addresses. -/
def Coherent (P : Primitives) (p : DataPlane) : Prop :=
  ∀ s r aead, p.data.dataCiphers.lookup (s, r) = some aead →
    ∃ key, p.primary = some key ∧ deriveDataPlaneMaterial P key s r = some aead

theorem cached_step (h : (p.step P mv).1.data.dataCiphers.lookup (s, r) = some aead) : p.data.dataCiphers.lookup
    (s, r) = some aead ∨ (p.step P mv).1.primary = p.primary ∧ ∃ key, p.primary = some key ∧ deriveDataPlaneMaterial P
    key s r = some aead := by
  have hnew : ∀ {d : DataCrypto} {s' r'}, d.dataCiphers = p.data.dataCiphers →
      (d.dataPlaneCipher P p.primary s' r').1.dataCiphers.lookup (s, r) = some aead →
      p.data.dataCiphers.lookup (s, r) = some aead ∨
        ∃ key, p.primary = some key ∧ deriveDataPlaneMaterial P key s r = some aead := by
    intro d s' r' hd hl
    rcases DataCrypto.dataPlaneCipher_cached P p.primary hl with hl | ⟨hpair, hkey⟩
    · exact .inl (hd ▸ hl)
    cases hpair; exact .inr hkey
  cases mv with
  | keep => exact .inl h
  | install key => cases h
  | rekey key => exact .inl h
  | forget vips => exact .inl (DataCrypto.forget_ciphers vips p.data h)
  | encrypt x y payload =>
    have hctr := (DataCrypto.nextDataSendCounter_ciphers p.data y).1
    simp only [step] at h
    rcases DataCrypto.encrypt_fst P p.primary with he | he
    · rw [he, hctr] at h; exact .inl h
    rw [he] at h
    exact (hnew hctr h).imp_right fun hk => ⟨rfl, hk⟩
  | receive peer my body =>
    simp only [step] at h
    rcases DataCrypto.openFrame_ciphers P p.primary with he | he
    · rw [he] at h; exact .inl h
    rw [he] at h
    exact (hnew rfl h).imp_right fun hk => ⟨rfl, hk⟩

theorem CacheDerived.step (h : p.CacheDerived P) (mv : DataMove) : (p.step P mv).1.CacheDerived P := by
  intro s r aead hl
  rcases cached_step hl with hl | ⟨_, key, _, hk⟩
  · exact h s r aead hl
  exact ⟨key, hk⟩

def KeepsCache (p : DataPlane) : DataMove → Prop
  | .rekey key => p.data.dataCiphers = ∅ ∨ p.primary = some key
  | _ => True

theorem Coherent.step (h : p.Coherent P) (hok : p.KeepsCache mv) : (p.step P mv).1.Coherent P := by
  intro s r aead hl
  have hsame : ∀ {p' : DataPlane}, p'.primary = p.primary →
      (∃ key, p.primary = some key ∧ deriveDataPlaneMaterial P key s r = some aead) →
      ∃ key, p'.primary = some key ∧ deriveDataPlaneMaterial P key s r = some aead := by
    intro p' hp hk
    rw [hp]; exact hk
  rcases cached_step hl with hl' | ⟨hp, hk⟩
  · cases mv with
    | install key => cases hl
    | rekey key =>
      rcases hok with he | he
      · rw [he] at hl'; cases hl'
      exact hsame he.symm (h s r aead hl')
    | keep => exact h s r aead hl'
    | forget vips => exact h s r aead hl'
    | encrypt x y payload => exact h s r aead hl'
    | receive peer my body => exact h s r aead hl'
  · exact hsame hp hk

theorem Coherent.keepsCache (h : p.Coherent P) (hkdf : P.HkdfInjective)
    (h' : (p.step P mv).1.Coherent P) : p.KeepsCache mv := by
  cases mv with
  | rekey key =>
    by_cases hempty : p.data.dataCiphers = ∅
    · exact .inl hempty
    obtain ⟨⟨s, r⟩, aead, hl⟩ := HashMap.exists_lookup_of_ne_empty _ hempty
    obtain ⟨old, hp, hd⟩ := h s r aead hl
    obtain ⟨key', hp', hd'⟩ := h' s r aead hl
    cases hp'
    exact .inr (hp.trans (congrArg some (deriveDataPlaneMaterial_inj hkdf hd hd').1))
  | _ => trivial

theorem CacheDerived.cipherFor (h : p.CacheDerived P)
    (hc : p.cipherFor P s r = some aead) : ∃ key, deriveDataPlaneMaterial P key s r = some aead := by
  rcases DataCrypto.dataPlaneCipher_snd P p.primary hc with hl | ⟨key, _, hk⟩
  · exact h s r aead hl
  exact ⟨key, hk⟩

theorem Coherent.cipherFor_eq (h : p.Coherent P) {key : Key} (hp : p.primary = some key)
    : p.cipherFor P s r = deriveDataPlaneMaterial P key s r := by
  unfold DataPlane.cipherFor DataCrypto.dataPlaneCipher
  split
  · rename_i aead hl
    obtain ⟨key', hp', hd⟩ := h s r aead hl
    cases hp.symm.trans hp'
    exact hd.symm
  rw [hp, Option.bind_some]
  split
  · rename_i hd; exact hd.symm
  rename_i hd; exact hd.symm

/-! ## Runs -/

def new : DataPlane := ⟨none, .empty⟩

section
variable (mvs : List DataMove)

theorem cacheDerived_run (i : Nat) : (stateAt (step P) new mvs i).CacheDerived P :=
  Machine.invariant_all (fun s r aead h => by cases h) (fun _ mv h => h.step mv) i

theorem drops_of_sealed_twice (hkdf : P.HkdfInjective) {i j : Nat} (hij : i < j) {p : Bytes}
    (hi : .sealed aead c p ∈ emitAt (step P) new mvs i)
    (hj : .sealed aead c q ∈ emitAt (step P) new mvs j) : ∃ s d,
    (mvs[i]? = some (.encrypt s d p) ∧ (stateAt (step P) new mvs i).cipherFor P s d = some aead) ∧
    (mvs[j]? = some (.encrypt s d q) ∧ (stateAt (step P) new mvs j).cipherFor P s d = some aead) ∧ ∃ k mv, i <
    k ∧ k < j ∧ mvs[k]? = some mv ∧ Drops d mv := by
  obtain ⟨mi, hmi, hi⟩ := emitAt_mem _ _ _ hi
  obtain ⟨mj, hmj, hj⟩ := emitAt_mem _ _ _ hj
  obtain ⟨s, d, rfl, hci, _, hnext⟩ := sealed_step hi
  obtain ⟨s', d', rfl, hcj, hctr, _⟩ := sealed_step hj
  obtain ⟨key, hk⟩ := (cacheDerived_run mvs i).cipherFor hci
  obtain ⟨key', hk'⟩ := (cacheDerived_run mvs j).cipherFor hcj
  obtain ⟨_, rfl, rfl⟩ := deriveDataPlaneMaterial_inj hkdf hk hk'
  refine ⟨s, d, ⟨hmi, hci⟩, ⟨hmj, hcj⟩, ?_⟩
  -- the counter of the peer has passed the first frame's and is back at it
  have hpassed : c < (stateAt (step P) new mvs (i + 1)).counter d := by
    rw [stateAt_succ _ _ _ hmi]; omega
  have hback : ¬ c < (stateAt (step P) new mvs j).counter d := by omega
  obtain ⟨k, mv, hk, hkj, hmv, hB, hB'⟩ := exists_break (B := fun p : DataPlane => c < p.counter d) hij hpassed hback
  refine ⟨k, mv, hk, hkj, hmv, ?_⟩
  by_contra hd
  exact hB' (Nat.lt_of_lt_of_le hB (counter_le_step _ hd))

theorem drops_of_opened_twice (hbind : P.BindsAad) {i j : Nat} (hij : i < j) {peer' my' : UInt32} {p : Bytes}
    (hmi : mvs[i]? = some (.receive peer my body)) (hmj : mvs[j]? = some (.receive peer' my' body))
    (hi : .opened p ∈ emitAt (step P) new mvs i) (hj : .opened q ∈ emitAt (step P) new mvs j) : peer =
    peer' ∧ ∃ k mv, i < k ∧ k < j ∧ mvs[k]? = some mv ∧ Drops peer mv := by
  obtain ⟨mi, hmi', hi⟩ := emitAt_mem _ _ _ hi
  obtain ⟨mj, hmj', hj⟩ := emitAt_mem _ _ _ hj
  obtain rfl := Option.some.inj (hmi.symm.trans hmi')
  obtain rfl := Option.some.inj (hmj.symm.trans hmj')
  obtain ⟨_, _, _, hreceive, _, hblocked, aead, hdec⟩ := opened_step hi
  cases hreceive
  obtain ⟨_, _, _, hreceive, hallowed, _, aead', hdec'⟩ := opened_step hj
  cases hreceive
  have hpeer := decryptFramedPayload_peer hbind hdec hdec'
  subst hpeer
  refine ⟨rfl, ?_⟩
  rw [← stateAt_succ _ _ _ hmi] at hblocked
  obtain ⟨k, mv, hk, hkj, hmv, hB, hB'⟩ := exists_break
    (B := fun p : DataPlane => p.Blocked peer (decodeWireCounter (body.take wireCounterLen))) hij hblocked hallowed
  refine ⟨k, mv, hk, hkj, hmv, ?_⟩
  by_contra hd
  exact hB' (blocked_step hd hB)

end

end DataPlane

end ConnectUnit
