import ConnectUnit.Crypto
import ConnectUnit.Replay
import ConnectUnit.Lib.Machine

/-!
# The data plane of one engine

The per-peer state behind encrypted data frames: cached ciphers, send counters and replay windows.
-/

namespace ConnectUnit

/-! ## Engine functions -/

structure DataCrypto where
  dataCiphers : HashMap (UInt32 × UInt32) DataPlaneAead
  dataSendCtr : HashMap UInt32 Nat
  dataReplay : HashMap UInt32 DataReplayWindow

namespace DataCrypto

def empty : DataCrypto := ⟨∅, ∅, ∅⟩

def clearDataCryptoForVip (d : DataCrypto) (vip : UInt32) : DataCrypto where
  dataCiphers := d.dataCiphers.retain fun pair _ => pair.1 ≠ vip && pair.2 ≠ vip
  dataSendCtr := d.dataSendCtr.erase vip
  dataReplay := d.dataReplay.erase vip

def nextDataSendCounter (d : DataCrypto) (destVip : UInt32) : DataCrypto × Option Nat :=
  let out := (d.dataSendCtr.lookup destVip).getD 0
  if out ≥ 2 ^ 48 then (d, none)
  else ({ d with dataSendCtr := d.dataSendCtr.insert destVip (out + 1) }, some out)

section
variable (P : Primitives) (primary : Option Key)
variable (d : DataCrypto)

def dataPlaneCipher (senderVip receiverVip : UInt32) : DataCrypto × Option DataPlaneAead :=
  match d.dataCiphers.lookup (senderVip, receiverVip) with
  | some found => (d, some found)
  | none =>
    match primary.bind fun key => deriveDataPlaneMaterial P key senderVip receiverVip with
    | some aead => ({ d with dataCiphers := d.dataCiphers.insert (senderVip, receiverVip) aead }, some aead)
    | none => (d, none)

def encryptFramedPacketReuse (senderVip destVip : UInt32) (payload : Bytes) :
    DataCrypto × Option (DataPlaneAead × Nat) × Option Bytes :=
  match d.nextDataSendCounter destVip with
  | (d, none) => (d, none, none)
  | (d, some counter) =>
    match dataPlaneCipher P primary d senderVip destVip with
    | (d, none) => (d, none, none)
    | (d, some aead) =>
      (d, some (aead, counter), aead.encryptFramedPacketInto P counter (dataAad senderVip destVip) payload)

def replayAllows (peerVip : UInt32) (counter : Nat) : Bool :=
  match d.dataReplay.lookup peerVip with
  | some w => w.allows counter
  | none => true

def commitReplay (peerVip : UInt32) (counter : Nat) : DataCrypto :=
  { d with dataReplay := d.dataReplay.insert peerVip (((d.dataReplay.lookup peerVip).getD .new).commit counter) }

def openFrame (peerVip myVip : UInt32) (body : Bytes) : DataCrypto × Option Bytes :=
  let counterWire := body.take wireCounterLen
  let counter := decodeWireCounter counterWire
  if !d.replayAllows peerVip counter then (d, none)
  else
    match dataPlaneCipher P primary d peerVip myVip with
    | (d, none) => (d, none)
    | (d, some aead) =>
      match aead.decryptFramedPayloadInto P counterWire (dataAad peerVip myVip) (body.drop wireCounterLen) with
      | some plain => (d.commitReplay peerVip counter, some plain)
      | none => (d, none)

end

end DataCrypto

/-! ## The machine -/

structure DataPlane where
  primary : Option Key
  data : DataCrypto

inductive DataMove where
  | keep
  /-- A new primary key (or none), with all data-plane state cleared. -/
  | install (key : Option Key)
  /-- A new primary key, with the data-plane state left as it is. -/
  | rekey (key : Key)
  | forget (vips : List UInt32)
  | encrypt (senderVip destVip : UInt32) (payload : Bytes)
  | receive (peerVip myVip : UInt32) (body : Bytes)

inductive DataOutput where
  | sealed (aead : DataPlaneAead) (counter : Nat) (plaintext : Bytes)
  | opened (plain : Bytes)
  deriving DecidableEq

def sealedOutput (call : Option (DataPlaneAead × Nat)) (payload : Bytes) : List DataOutput :=
  match call with
  | some (aead, counter) => [.sealed aead counter payload]
  | none => []

def openedOutput (plain : Option Bytes) : List DataOutput :=
  match plain with
  | some plain => [.opened plain]
  | none => []

namespace DataPlane

def step (P : Primitives) (p : DataPlane) : DataMove → DataPlane × List DataOutput
  | .keep => (p, [])
  | .install key => (⟨key, .empty⟩, [])
  | .rekey key => (⟨some key, p.data⟩, [])
  | .forget vips => (⟨p.primary, vips.foldl DataCrypto.clearDataCryptoForVip p.data⟩, [])
  | .encrypt s d payload =>
    let r := p.data.encryptFramedPacketReuse P p.primary s d payload
    (⟨p.primary, r.1⟩, sealedOutput r.2.1 payload)
  | .receive peer my body =>
    let r := p.data.openFrame P p.primary peer my body
    (⟨p.primary, r.1⟩, openedOutput r.2)

def cipherFor (P : Primitives) (p : DataPlane) (senderVip receiverVip : UInt32) : Option DataPlaneAead :=
  (p.data.dataPlaneCipher P p.primary senderVip receiverVip).2

def Drops (d : UInt32) : DataMove → Prop
  | .install _ => True
  | .forget vips => d ∈ vips
  | _ => False

def counter (p : DataPlane) (d : UInt32) : Nat := (p.data.dataSendCtr.lookup d).getD 0

def Blocked (p : DataPlane) (d : UInt32) (c : Nat) : Prop := p.data.replayAllows d c = false

end DataPlane

end ConnectUnit
