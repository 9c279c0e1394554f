import ConnectUnit.Keys
import ConnectUnit.Replay

/-!
# The control plane of one engine

Sealing and opening of control frames: the cipher cache, the one send counter, the replay table of sources and the
rate limit.
-/

namespace ConnectUnit

/-! ## Packet tags -/

structure Tag where
  b0 : UInt8
  b1 : UInt8
  b2 : UInt8
  b3 : UInt8
  deriving DecidableEq, Repr

def Tag.bytes (t : Tag) : Bytes := [t.b0, t.b1, t.b2, t.b3]

def Tag.split : Bytes → Option (Tag × Bytes)
  | b0 :: b1 :: b2 :: b3 :: body => some (⟨b0, b1, b2, b3⟩, body)
  | _ => none

def Tag.ofChars (a b c d : Char) : Tag := ⟨a.toUInt8, b.toUInt8, c.toUInt8, d.toUInt8⟩

def pktKpal : Tag := .ofChars 'M' 'K' 'P' 'L'
def pktJoin : Tag := .ofChars 'M' 'P' 'J' 'N'
def pktJack : Tag := .ofChars 'M' 'P' 'J' 'A'
def pktPrxy : Tag := .ofChars 'M' 'P' 'R' 'X'
def pktHpch : Tag := .ofChars 'M' 'H' 'O' 'L'
def pktHack : Tag := .ofChars 'M' 'H' 'A' 'C'
def pktClg : Tag := .ofChars 'M' 'C' 'L' 'G'
def pktLeave : Tag := .ofChars 'M' 'L' 'E' 'A'
def pktMerr : Tag := .ofChars 'M' 'E' 'R' 'R'
def pktCtsig : Tag := .ofChars 'M' 'C' 'T' 'S'
def pktParaHello : Tag := .ofChars 'M' 'P' 'H' 'I'
def pktParaReply : Tag := .ofChars 'M' 'P' 'H' 'R'
def pktParaOk : Tag := .ofChars 'M' 'P' 'H' 'O'
def pktParaPunchAck : Tag := .ofChars 'M' 'P' 'P' 'A'

def isSignalingTag (tag : Tag) : Bool :=
  tag ∈ [pktMerr, pktParaHello, pktParaReply, pktParaOk, pktParaPunchAck, pktKpal, pktHpch, pktHack]

def needsSign (tag : Tag) : Bool := tag ∈ [pktClg, pktLeave, pktPrxy, pktJack]

def frameWithTag (tag : Tag) (body : Bytes) : Bytes := tag.bytes ++ body

/-! ## Engine functions -/

structure ControlCrypto where
  controlCiphers : HashMap Key ControlPlaneAead
  ctrlSendCtr : UInt64
  ctrlReplay : CtrlReplayTable
  ctrlLimiter : ControlRateLimiter

namespace ControlCrypto

def new (now : Instant) : ControlCrypto := ⟨∅, 0, .new, .new 400 400 now⟩

def nextCtrlSendCounter (c : ControlCrypto) : ControlCrypto × Option Nat :=
  let out := c.ctrlSendCtr.toNat
  ({ c with ctrlSendCtr := c.ctrlSendCtr + 1 }, if out ≥ 2 ^ 48 then none else some out)

section
variable (P : Primitives)
variable (c : ControlCrypto) (key : AeadKey)

def controlPlaneCipher : ControlCrypto × Option ControlPlaneAead :=
  match c.controlCiphers.lookup key.material with
  | some found => (c, some found)
  | none =>
    match deriveControlPlaneMaterial P key.material with
    | some aead => ({ c with controlCiphers := c.controlCiphers.insert key.material aead }, some aead)
    | none => (c, none)

def sealControlBody (tag : Tag) (body : Bytes) : ControlCrypto × Option (ControlPlaneAead × Nat) × Option Bytes :=
  match c.nextCtrlSendCounter with
  | (c, none) => (c, none, none)
  | (c, some counter) =>
    match controlPlaneCipher P c key with
    | (c, none) => (c, none, none)
    | (c, some aead) => (c, some (aead, counter), aead.sealInto P counter (tag.bytes ++ body))

def sealStatic (tag : Tag) (body : Bytes) : ControlCrypto × Option (ControlPlaneAead × Nat) × Option Bytes :=
  match c.nextCtrlSendCounter with
  | (c, none) => (c, none, none)
  | (c, some counter) =>
    match deriveControlPlaneMaterial P key.material with
    | none => (c, none, none)
    | some aead => (c, some (aead, counter), aead.sealInto P counter (tag.bytes ++ body))

def openWithKeys (counterWire sealed : Bytes) :
    ControlCrypto → List AeadKey → ControlCrypto × Option (AeadKey × Bytes)
  | c, [] => (c, none)
  | c, key :: keys =>
    match controlPlaneCipher P c key with
    | (c, none) => openWithKeys counterWire sealed c keys
    | (c, some aead) =>
      match aead.openInto P counterWire sealed with
      | some plain => (c, some (key, plain))
      | none => openWithKeys counterWire sealed c keys

def minCtrlAead : Nat := wireCounterLen + 4 + dataTagLen

def openSigned (keys : List AeadKey) (srcKey : UInt64) (body : Bytes) (now : Instant)
    (tie : Nat) : ControlCrypto × Option (AeadKey × Tag × Bytes) :=
  if body.length < minCtrlAead then (c, none)
  else
    let counterWire := body.take wireCounterLen
    let counter := decodeWireCounter counterWire
    match openWithKeys P counterWire (body.drop wireCounterLen) c keys with
    | (c, none) => (c, none)
    | (c, some (key, plain)) =>
      match Tag.split plain with
      | none => (c, none)
      | some (tag, frameBody) =>
        let (limiter, allowed) := c.ctrlLimiter.allow srcKey now
        let c := { c with ctrlLimiter := limiter }
        if !allowed then (c, none)
        else if !c.ctrlReplay.allows srcKey counter then (c, none)
        else ({ c with ctrlReplay := c.ctrlReplay.commit srcKey counter now tie }, some (key, tag, frameBody))

end

end ControlCrypto

/-! ## The machine -/

inductive ControlMove where
  | keep
  | clearCiphers
  | reset
  | send (cached : Bool) (key : AeadKey) (tag : Tag) (body : Bytes)
  | deliver (keys : List AeadKey) (srcKey : UInt64) (body : Bytes) (now : Instant) (tie : Nat)

inductive ControlOutput where
  | sealed (aead : ControlPlaneAead) (counter : Nat) (plaintext : Bytes)
  | dispatched (tag : Tag) (body : Bytes)
  deriving DecidableEq

def controlSealedOutput (call : Option (ControlPlaneAead × Nat)) (tag : Tag) (body : Bytes) : List ControlOutput :=
  match call with
  | some (aead, counter) => [.sealed aead counter (tag.bytes ++ body)]
  | none => []

def dispatchedOutput (opened : Option (AeadKey × Tag × Bytes)) : List ControlOutput :=
  match opened with
  | some (_, tag, body) => [.dispatched tag body]
  | none => []

namespace ControlCrypto

def sealWith (P : Primitives) (cached : Bool) (c : ControlCrypto) (key : AeadKey) (tag : Tag) (body : Bytes) :
    ControlCrypto × Option (ControlPlaneAead × Nat) × Option Bytes :=
  if cached then sealControlBody P c key tag body else sealStatic P c key tag body

def step (P : Primitives) (c : ControlCrypto) : ControlMove → ControlCrypto × List ControlOutput
  | .keep => (c, [])
  | .clearCiphers => ({ c with controlCiphers := ∅ }, [])
  | .reset => ({ c with controlCiphers := ∅, ctrlSendCtr := 0, ctrlReplay := c.ctrlReplay.clear }, [])
  | .send cached key tag body =>
    let r := sealWith P cached c key tag body
    (r.1, controlSealedOutput r.2.1 tag body)
  | .deliver keys srcKey body now tie =>
    let r := openSigned P c keys srcKey body now tie
    (r.1, dispatchedOutput r.2)

end ControlCrypto

end ConnectUnit
