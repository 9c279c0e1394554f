import ConnectUnit.Net
import ConnectUnit.Lib.ReplayWindow

/-!
# Keys, ciphers and wire counters

The key derivation and the cipher are parameters: `Primitives` holds the functions that the engine calls.
-/

namespace ConnectUnit

variable {wire p : Bytes} {s r s' r' : UInt32} {P : Primitives} {aead : DataPlaneAead}

def keyLen : Nat := 32
def aeadKeyLen : Nat := 16
def wireCounterLen : Nat := 6
def dataTagLen : Nat := 16
def dataReplayMaxCounter : Nat := 2 ^ 48 - 1

structure Key where
  bytes : Bytes
  length : bytes.length = keyLen
  deriving DecidableEq

/-- The functions from outside: HKDF-SHA256 under the fixed domain salt, the two bytes that it expands to
without a salt for the subnet of a key, and AEGIS-128L. -/
structure Primitives where
  hkdf : (networkKey : Key) → (info : Bytes) → Option Bytes
  hkdfSubnet : (networkKey : Key) → UInt8 × UInt8
  encrypt : (key nonce aad plaintext : Bytes) → Bytes × Bytes
  decrypt : (key nonce aad ciphertext tag : Bytes) → Option Bytes

/-! ## Wire counters -/

def toLeBytes : Nat → Nat → Bytes
  | 0, _ => []
  | n + 1, c => UInt8.ofNat (c % 256) :: toLeBytes n (c / 256)

def fromLeBytes : Bytes → Nat
  | [] => 0
  | b :: bs => b.toNat + 256 * fromLeBytes bs

def encodeWireCounter (counter : Nat) : Option Bytes :=
  if counter > dataReplayMaxCounter then none else some (toLeBytes wireCounterLen counter)

def decodeWireCounter (counterWire : Bytes) : Nat := fromLeBytes counterWire

theorem toLeBytes_length : ∀ n c, (toLeBytes n c).length = n
  | 0, _ => rfl
  | n + 1, c => by rw [toLeBytes, List.length_cons, toLeBytes_length n]

theorem fromLeBytes_toLeBytes : ∀ n c, c < 256 ^ n → fromLeBytes (toLeBytes n c) = c
  | 0, c, h => by simp [toLeBytes, fromLeBytes] at *; omega
  | n + 1, c, h => by
    have hdiv : c / 256 < 256 ^ n := by
      rw [Nat.div_lt_iff_lt_mul (by omega)]
      rwa [Nat.pow_succ] at h
    rw [toLeBytes, fromLeBytes, fromLeBytes_toLeBytes n _ hdiv, UInt8.toNat_ofNat']
    omega

theorem decode_encodeWireCounter {c : Nat} (h : encodeWireCounter c = some wire) :
    decodeWireCounter wire = c ∧ wire.length = wireCounterLen := by
  unfold encodeWireCounter at h
  split at h
  · cases h
  rename_i hc
  cases h
  refine ⟨fromLeBytes_toLeBytes _ _ ?_, toLeBytes_length _ _⟩
  have : dataReplayMaxCounter = 281474976710655 := rfl
  have : 256 ^ wireCounterLen = 281474976710656 := rfl
  omega

/-! ## Data plane -/

structure DataPlaneAead where
  key : Bytes
  salt : Bytes
  deriving DecidableEq, Repr

def dataInfo (senderVip receiverVip : UInt32) : Bytes :=
  [0x64, 0x61, 0x74, 0x61] ++ u32ToBeBytes senderVip ++ u32ToBeBytes receiverVip

def dataAad (senderVip receiverVip : UInt32) : Bytes := u32ToBeBytes senderVip ++ u32ToBeBytes receiverVip

def compactEncrypted : UInt8 := 0x02

section
variable (P : Primitives)

def deriveDataPlaneMaterial (networkKey : Key) (senderVip receiverVip : UInt32) : Option DataPlaneAead :=
  (P.hkdf networkKey (dataInfo senderVip receiverVip)).map fun okm =>
    ⟨okm.take aeadKeyLen, okm.drop aeadKeyLen⟩

def DataPlaneAead.encryptFramedPacketInto (aead : DataPlaneAead) (counter : Nat) (aad plaintext : Bytes) :
    Option Bytes :=
  (encodeWireCounter counter).map fun counterWire =>
    let (ciphertext, tag) := P.encrypt aead.key (aead.salt ++ counterWire) aad plaintext
    compactEncrypted :: (counterWire ++ (ciphertext ++ tag))

def DataPlaneAead.decryptFramedPayloadInto (aead : DataPlaneAead) (counterWire aad payload : Bytes) : Option Bytes :=
  if payload.length < dataTagLen then none
  else
    let tagStart := payload.length - dataTagLen
    P.decrypt aead.key (aead.salt ++ counterWire) aad (payload.take tagStart) (payload.drop tagStart)

end

theorem u32ToBeBytes_length {u : UInt32} : (u32ToBeBytes u).length = 4 := rfl

theorem dataAad_inj (h : dataAad s r = dataAad s' r') : s = s' ∧ r = r' := by
  have h' := List.append_inj h (by rw [u32ToBeBytes_length, u32ToBeBytes_length])
  exact ⟨u32ToBeBytes_inj h'.1, u32ToBeBytes_inj h'.2⟩

theorem dataInfo_inj (h : dataInfo s r = dataInfo s' r') : s = s' ∧ r = r' := by
  unfold dataInfo at h
  rw [List.append_assoc, List.append_assoc] at h
  exact dataAad_inj (List.append_cancel_left h)

/-! ## Control plane -/

structure ControlPlaneAead where
  key : Bytes
  salt : Bytes
  deriving DecidableEq, Repr

def ctrlInfo : Bytes := [0x63, 0x74, 0x72, 0x6C]

def ctrlAad : Bytes := [0x6D, 0x63, 0x74, 0x73]

section
variable (P : Primitives)

def deriveControlPlaneMaterial (networkKey : Key) : Option ControlPlaneAead :=
  (P.hkdf networkKey ctrlInfo).map fun okm => ⟨okm.take aeadKeyLen, okm.drop aeadKeyLen⟩

def ControlPlaneAead.sealInto (aead : ControlPlaneAead) (counter : Nat) (plaintext : Bytes) : Option Bytes :=
  (encodeWireCounter counter).map fun counterWire =>
    let (ciphertext, tag) := P.encrypt aead.key (aead.salt ++ counterWire) ctrlAad plaintext
    counterWire ++ (ciphertext ++ tag)

def ControlPlaneAead.openInto (aead : ControlPlaneAead) (counterWire payload : Bytes) : Option Bytes :=
  if payload.length < dataTagLen then none
  else
    let tagStart := payload.length - dataTagLen
    P.decrypt aead.key (aead.salt ++ counterWire) ctrlAad (payload.take tagStart) (payload.drop tagStart)

end

/-! ## What is assumed of the primitives -/

/-- HKDF is an injective function of the network key and the info. -/
def Primitives.HkdfInjective (P : Primitives) : Prop :=
  ∀ k info k' info' okm, P.hkdf k info = some okm → P.hkdf k' info' = some okm → k = k' ∧ info = info'

/-- The tag authenticates the associated data: a frame opens for one sender and receiver only. -/
def Primitives.BindsAad (P : Primitives) : Prop :=
  ∀ k n k' n' s r s' r' ct tag p p', P.decrypt k n (dataAad s r) ct tag = some p →
    P.decrypt k' n' (dataAad s' r') ct tag = some p' → dataAad s r = dataAad s' r'

/-- Decryption inverts encryption, and tags have the length the frames reserve for them. -/
structure Primitives.RoundTrip (P : Primitives) : Prop where
  open_seal : ∀ k n aad p, P.decrypt k n aad (P.encrypt k n aad p).1 (P.encrypt k n aad p).2 = some p
  tag_length : ∀ k n aad p, (P.encrypt k n aad p).2.length = dataTagLen

theorem deriveDataPlaneMaterial_inj (h : P.HkdfInjective) {k k' : Key}
    (hd : deriveDataPlaneMaterial P k s r = some aead)
    (hd' : deriveDataPlaneMaterial P k' s' r' = some aead) : k = k' ∧ s = s' ∧ r = r' := by
  obtain ⟨okm, ho, he⟩ := Option.map_eq_some_iff.mp hd
  obtain ⟨okm', ho', he'⟩ := Option.map_eq_some_iff.mp hd'
  have hcut := he.trans he'.symm
  simp only [DataPlaneAead.mk.injEq] at hcut
  have hokm : okm = okm' := by
    rw [← List.take_append_drop aeadKeyLen okm, hcut.1, hcut.2, List.take_append_drop]
  subst hokm
  obtain ⟨hk, hinfo⟩ := h _ _ _ _ _ ho ho'
  exact ⟨hk, dataInfo_inj hinfo⟩

theorem decryptFramedPayload_peer (h : P.BindsAad) {aead' : DataPlaneAead} {payload p' : Bytes}
    (hd : aead.decryptFramedPayloadInto P wire (dataAad s r) payload = some p)
    (hd' : aead'.decryptFramedPayloadInto P wire (dataAad s' r') payload = some p') : s = s' := by
  unfold DataPlaneAead.decryptFramedPayloadInto at hd hd'
  split at hd
  · cases hd
  rename_i hlen
  rw [if_neg hlen] at hd'
  exact (dataAad_inj (h _ _ _ _ _ _ _ _ _ _ _ _ hd hd')).1

theorem decrypt_encryptFramedPacket (h : P.RoundTrip) {c : Nat} {aad frame : Bytes}
    (hf : aead.encryptFramedPacketInto P c aad p = some frame) : ∃ wire payload, frame = compactEncrypted ::
    (wire ++ payload) ∧ wire.length = wireCounterLen ∧ decodeWireCounter wire = c ∧ dataTagLen ≤ payload.length ∧
    aead.decryptFramedPayloadInto P wire aad payload = some p := by
  obtain ⟨wire, hw, rfl⟩ := Option.map_eq_some_iff.mp hf
  obtain ⟨hdec, hlen⟩ := decode_encodeWireCounter hw
  have htag := h.tag_length aead.key (aead.salt ++ wire) aad p
  refine ⟨wire, _, rfl, hlen, hdec, by rw [List.length_append, htag]; omega, ?_⟩
  unfold DataPlaneAead.decryptFramedPayloadInto
  dsimp only
  rw [List.length_append, htag, if_neg (by omega), Nat.add_sub_cancel, List.take_left, List.drop_left]
  exact h.open_seal _ _ _ _

/-! ## A transparent instance -/

def Key.filled (b : UInt8) : Key := ⟨List.replicate keyLen b, rfl⟩

def padTag (aad : Bytes) : Bytes := (aad ++ List.replicate dataTagLen 0).take dataTagLen

/-- Primitives that hide nothing: the derived material is the key followed by the info, the tag is the
associated data, and every subnet is 10.0.0. They meet the assumptions, so no statement that assumes them is empty. -/
def Primitives.transparent : Primitives where
  hkdf k info := some (k.bytes ++ info)
  hkdfSubnet _ := (0, 0)
  encrypt _ _ aad p := (p, padTag aad)
  decrypt _ _ aad ct tag := if tag = padTag aad then some ct else none

theorem transparent_hkdfInjective : Primitives.transparent.HkdfInjective := by
  intro k info k' info' okm h h'
  simp only [Primitives.transparent, Option.some.injEq] at h h'
  have hcut := List.append_inj (h.trans h'.symm) (by rw [k.length, k'.length])
  refine ⟨?_, hcut.2⟩
  cases k; cases k'
  simp only [Key.mk.injEq]
  exact hcut.1

theorem transparent_bindsAad : Primitives.transparent.BindsAad := by
  intro k n k' n' s r s' r' ct tag p p' h h'
  simp only [Primitives.transparent] at h h'
  split at h
  · rename_i ht
    split at h'
    · rename_i ht'
      have hpad : dataAad s r ++ List.replicate 8 0 = dataAad s' r' ++ List.replicate 8 0 := ht.symm.trans ht'
      exact List.append_cancel_right hpad
    · cases h'
  · cases h

theorem transparent_roundTrip : Primitives.transparent.RoundTrip where
  open_seal k n aad p := by simp [Primitives.transparent]
  tag_length k n aad p := by simp [Primitives.transparent, padTag]

end ConnectUnit
