import ConnectUnit.Lib.Erasure
import ConnectUnit.Crypto

/-!
# Forward error correction

The encoder collects packets into groups, adds parity shards and frames each shard; the decoder collects the frames of
a group until its packets can be given back.
-/

namespace ConnectUnit.Fec

def fecShardPayloadSize : Nat := 1279
def fecShardLenPrefix : Nat := 2
def fecMaxTotalShards : Nat := 64
def fecCompactHeaderLen : Nat := 10

def compactFec : UInt8 := 0x03

inductive FlushPolicy where
  | immediate | aggressive | standard
  deriving DecidableEq

def classifyPacket (len : Nat) : FlushPolicy :=
  if len ≤ 255 then .immediate else if len ≤ 799 then .aggressive else .standard

inductive FecOutput where
  | buffered
  | encoded (pkts : List Bytes)
  | passthrough (pkts : List Bytes)
  deriving DecidableEq

def buildFecPacket (groupId : UInt32) (shardIdx dataShards parityShards : UInt8) (shardData : Bytes) : Bytes :=
  [compactFec] ++ toLeBytes 4 groupId.toNat ++ [shardIdx, dataShards, parityShards] ++ toLeBytes 2 shardData.length ++
    shardData

/-! ## The encoder -/

structure PendingShard where
  original : Bytes
  shard : Bytes

structure FecEncoder (γ : Type) where
  groupSalt : UInt32
  groupSeq : UInt32
  dataShards : UInt8
  parityShards : UInt8
  shardBuf : List PendingShard
  firstAt : Option Instant
  rsCache : Option γ
  rsCacheData : Nat
  rsCacheParity : Nat
  /-- Spare buffers, the one returned last first. -/
  shardPool : List Bytes
  groupFlushTimeout : Nat
  shardPayloadSize : Nat
  flushStandard : Nat
  flushAggressive : Nat

abbrev QueueBudget := Option (Nat × Nat)

def QueueBudget.refuses (budget : QueueBudget) (total : Nat) : Bool := budget.any fun b => b.2 < b.1 + total

namespace FecEncoder

variable {γ : Type}

def withFlush (salt : UInt32) (dataShards parityShards : UInt8)
    (shardPayloadSize flushStandard flushAggressive : Nat) :
    FecEncoder γ where
  groupSalt := if salt = 0 then 0x9e3779b9 else salt
  groupSeq := 1
  dataShards := dataShards
  parityShards := parityShards
  shardBuf := []
  firstAt := none
  rsCache := none
  rsCacheData := 0
  rsCacheParity := 0
  shardPool := []
  groupFlushTimeout := flushStandard
  shardPayloadSize := shardPayloadSize
  flushStandard := flushStandard
  flushAggressive := flushAggressive

variable (rs : Codec γ UInt8) (e : FecEncoder γ)

def flushTimeoutForPolicy : FlushPolicy → Nat
  | .immediate => 0
  | .aggressive => e.flushAggressive
  | .standard => e.flushStandard

def resetGroupTiming : FecEncoder γ := { e with firstAt := none, groupFlushTimeout := e.flushStandard }

def bumpGroupSeq : FecEncoder γ := { e with groupSeq := max (e.groupSeq + 1) 1 }

def currentGroupId : UInt32 := e.groupSalt ^^^ e.groupSeq

def takeShardBuf : Bytes × FecEncoder γ :=
  let size := e.shardPayloadSize
  match e.shardPool with
  | v :: pool =>
    -- A buffer of another size is cleared and resized.
    (if v.length = size then v.map fun _ => 0 else List.replicate size 0, { e with shardPool := pool })
  | [] => (List.replicate size 0, e)

def returnShardBuf (v : Bytes) : FecEncoder γ :=
  if v.length = e.shardPayloadSize ∧ e.shardPool.length < 32 then
    { e with shardPool := (v.map fun _ => 0) :: e.shardPool }
  else e

def takeShardBufs : Nat → FecEncoder γ → List Bytes × FecEncoder γ
  | 0, e => ([], e)
  | n + 1, e =>
    let r := e.takeShardBuf
    let rest := takeShardBufs n r.2
    (r.1 :: rest.1, rest.2)

def takePassthroughPackets : FecEncoder γ × List Bytes :=
  let pending := e.shardBuf
  let e := pending.foldl (fun e s => e.returnShardBuf s.shard) { e with shardBuf := [] }
  (e.resetGroupTiming.bumpGroupSeq, pending.map (·.original))

def takePassthrough : FecEncoder γ × FecOutput :=
  let r := e.takePassthroughPackets
  (r.1, .passthrough r.2)

def withCodec (dataShards parityShards : Nat) : Option (γ × FecEncoder γ) :=
  match e.rsCache with
  | some c =>
    if e.rsCacheData = dataShards ∧ e.rsCacheParity = parityShards then some (c, e) else build
  | none => build
where
  build : Option (γ × FecEncoder γ) := (rs.new dataShards parityShards).map fun c =>
    (c, { e with rsCache := some c, rsCacheData := dataShards, rsCacheParity := parityShards })

def encodeAndReset (dataShards parityShards : Nat) (now : Instant) : FecEncoder γ × List Bytes :=
  match e.withCodec rs dataShards parityShards with
  | none => takePassthroughPackets { e with rsCache := none }
  | some (c, e) =>
    let groupId := e.currentGroupId
    if e.shardBuf.length < dataShards then e.takePassthroughPackets
    else
      let data := (e.shardBuf.take dataShards).map (·.shard)
      let r := takeShardBufs parityShards e
      match rs.encode c (data ++ r.1) with
      | none => (r.1.foldl returnShardBuf r.2).takePassthroughPackets
      | some word =>
        let out := word.mapIdx fun idx shard => buildFecPacket groupId (UInt8.ofNat idx) (UInt8.ofNat dataShards)
          (UInt8.ofNat parityShards) shard
        let e := word.foldl returnShardBuf r.2
        let e := { e with shardBuf := e.shardBuf.drop dataShards }
        let e := if e.shardBuf.isEmpty then e.resetGroupTiming
          else { e with firstAt := some now, groupFlushTimeout := e.flushStandard }
        (e.bumpGroupSeq, out)

def flush (queueBudget : QueueBudget) (now : Instant) : FecEncoder γ × FecOutput :=
  if e.shardBuf.isEmpty then (e.resetGroupTiming, .buffered)
  else if e.dataShards = 0 ∨ e.parityShards = 0 then e.takePassthrough
  else
    let dataN := e.shardBuf.length
    if dataN < 2 then e.takePassthrough
    else
      let configuredData := max e.dataShards.toNat 1
      let configuredParity := max e.parityShards.toNat 1
      let dynamicParity := (dataN * configuredParity + configuredData - 1) / configuredData
      let dynamicParity := max 1 (min dynamicParity configuredParity)
      if fecMaxTotalShards < dataN + dynamicParity then e.takePassthrough
      else if queueBudget.refuses (dataN + dynamicParity) then e.takePassthrough
      else
        let r := e.encodeAndReset rs dataN dynamicParity now
        (r.1, .encoded r.2)

def flushPassthrough : FecEncoder γ × FecOutput :=
  if e.shardBuf.isEmpty then (e.resetGroupTiming, .buffered) else e.takePassthrough

def fillShard (buf pkt : Bytes) : Bytes :=
  toLeBytes 2 pkt.length ++ pkt ++ buf.drop (fecShardLenPrefix + pkt.length)

def buffer (pkt : Bytes) (now : Instant) : FecEncoder γ :=
  let policy := classifyPacket pkt.length
  let start := if e.shardBuf.isEmpty then e.flushStandard else e.groupFlushTimeout
  let e := { e with
    groupFlushTimeout := min start (e.flushTimeoutForPolicy policy)
    firstAt := some (e.firstAt.getD now) }
  let r := e.takeShardBuf
  { r.2 with shardBuf := r.2.shardBuf ++ [⟨pkt, fillShard r.1 pkt⟩] }

def pushOutput (pkt : Bytes) (queueBudget : QueueBudget) (now : Instant) : FecEncoder γ × FecOutput :=
  if e.dataShards = 0 ∨ e.parityShards = 0 then (e, .passthrough [pkt])
  else if e.shardPayloadSize < pkt.length + fecShardLenPrefix then (e, .passthrough [pkt])
  else
    let total := e.dataShards.toNat + e.parityShards.toNat
    if total = 0 ∨ fecMaxTotalShards < total then (e, .passthrough [pkt])
    else
      let e := e.buffer pkt now
      if e.dataShards.toNat ≤ e.shardBuf.length then
        if queueBudget.refuses total then e.takePassthrough
        else
          let r := e.encodeAndReset rs e.dataShards.toNat e.parityShards.toNat now
          (r.1, .encoded r.2)
      else if classifyPacket pkt.length = .immediate then e.flush rs queueBudget now
      else (e, .buffered)

def updateRatioWithFlush (dataShards parityShards : UInt8) (queueBudget : QueueBudget) (now : Instant) :
    FecEncoder γ × FecOutput :=
  if e.dataShards = dataShards ∧ e.parityShards = parityShards then (e, .buffered)
  else
    let r := e.flush rs queueBudget now
    let e := resetGroupTiming { r.1 with shardBuf := [] }
    ({ e.bumpGroupSeq with dataShards := dataShards, parityShards := parityShards }, r.2)

end FecEncoder

inductive EncoderOp where
  | pushOutput (pkt : Bytes) (queueBudget : QueueBudget) (now : Instant)
  | updateRatioWithFlush (dataShards parityShards : UInt8) (queueBudget : QueueBudget) (now : Instant)
  | flush (queueBudget : QueueBudget) (now : Instant)
  | flushPassthrough

def encoderStep {γ : Type} (rs : Codec γ UInt8) (e : FecEncoder γ) : EncoderOp → FecEncoder γ × List FecOutput
  | .pushOutput pkt queueBudget now =>
    let r := e.pushOutput rs pkt queueBudget now
    (r.1, [r.2])
  | .updateRatioWithFlush dataShards parityShards queueBudget now =>
    let r := e.updateRatioWithFlush rs dataShards parityShards queueBudget now
    (r.1, [r.2])
  | .flush queueBudget now =>
    let r := e.flush rs queueBudget now
    (r.1, [r.2])
  | .flushPassthrough =>
    let r := e.flushPassthrough
    (r.1, [r.2])

/-! ## The decoder -/

def fecDecoderEvictInterval : Nat := millis 50
def fecCompletedGroupsCap : Nat := 128

structure PartialGroup where
  dataShards : UInt8
  parityShards : UInt8
  shardSize : Nat
  received : List (Option Bytes)
  receivedCount : Nat
  createdAt : Instant
  deriving DecidableEq

def groupShardsMissing (g : PartialGroup) : Nat := g.received.length - g.receivedCount

structure FecDecoder (γ : Type) where
  groups : HashMap UInt32 PartialGroup
  /-- The groups completed last, whose late shards are ignored. -/
  completedGroups : List UInt32
  groupTtl : Nat
  maxGroups : Nat
  reconstructRs : Option γ
  reconstructRsData : Nat
  reconstructRsParity : Nat
  lastEvict : Instant

structure FecDecodeResult where
  recovered : List Bytes
  invalid : Bool
  shardsNew : Nat
  shardsMissing : Nat
  deriving DecidableEq

def FecDecodeResult.invalidWithMissing (shardsMissing : Nat) : FecDecodeResult := ⟨[], true, 0, shardsMissing⟩

def FecDecodeResult.ok (recovered : List Bytes) (shardsNew shardsMissing : Nat) : FecDecodeResult :=
  ⟨recovered, false, shardsNew, shardsMissing⟩

structure ShardHeader where
  groupId : UInt32
  shardIdx : Nat
  dataShards : UInt8
  parityShards : UInt8
  shardSize : Nat
  shardData : Bytes

def ShardHeader.total (h : ShardHeader) : Nat := h.dataShards.toNat + h.parityShards.toNat

def parseShard : Bytes → Option ShardHeader
  | ty :: g0 :: g1 :: g2 :: g3 :: idx :: d :: p :: s0 :: s1 :: shardData =>
    if ty = compactFec then
      some ⟨UInt32.ofNat (fromLeBytes [g0, g1, g2, g3]), idx.toNat, d, p, fromLeBytes [s0, s1], shardData⟩
    else none
  | _ => none

def ShardHeader.Malformed (h : ShardHeader) : Prop :=
  h.total = 0 ∨ fecMaxTotalShards < h.total ∨ h.total ≤ h.shardIdx ∨ h.shardData.length < h.shardSize ∨
    h.shardSize < fecShardLenPrefix ∨ fecShardPayloadSize < h.shardSize

instance (h : ShardHeader) : Decidable h.Malformed := inferInstanceAs (Decidable (_ ∨ _ ∨ _ ∨ _ ∨ _ ∨ _))

def shardPacket (shard : Bytes) : Option Bytes :=
  let origLen := fromLeBytes (shard.take 2)
  if shard.length - fecShardLenPrefix < origLen then none
  else some ((shard.drop fecShardLenPrefix).take origLen)

namespace FecDecoder

variable {γ : Type}

def new (now : Instant) : FecDecoder γ where
  groups := ∅
  completedGroups := []
  groupTtl := millis 200
  maxGroups := 256
  reconstructRs := none
  reconstructRsData := 0
  reconstructRsParity := 0
  lastEvict := now

variable (rs : Codec γ UInt8) (dec : FecDecoder γ)
variable (groupId : UInt32)

def noteCompleted : FecDecoder γ :=
  let old :=
    if fecCompletedGroupsCap ≤ dec.completedGroups.length then dec.completedGroups.tail else dec.completedGroups
  { dec with completedGroups := old ++ [groupId] }

def dropGroup : FecDecoder γ × Nat :=
  ({ dec with groups := dec.groups.erase groupId }, ((dec.groups.lookup groupId).map groupShardsMissing).getD 0)

def evictAt (now : Instant) : FecDecoder γ × Nat :=
  let expired := dec.groups.entries.filter fun e => dec.groupTtl ≤ now - e.2.createdAt
  ({ dec with groups := dec.groups.retain fun _ g => now - g.createdAt < dec.groupTtl },
    (expired.map fun e => groupShardsMissing e.2).sum)

def oldestGroup (order : IterOrder) : Option UInt32 :=
  match (dec.groups.entries.map (·.2.createdAt)).min? with
  | none => none
  | some t => ((order.arrange dec.groups.entries).find? fun e => e.2.createdAt = t).map (·.1)

def evictOldestGroup (order : IterOrder) : FecDecoder γ × Nat :=
  match dec.oldestGroup order with
  | some id => dec.dropGroup id
  | none => (dec, 0)

def extractData : FecDecoder γ × List Bytes × Nat :=
  match dec.groups.lookup groupId with
  | none => (dec, [], 0)
  | some g =>
    ({ dec with groups := dec.groups.erase groupId },
      (g.received.take g.dataShards.toNat).filterMap fun shard => shard.bind shardPacket, groupShardsMissing g)

def takeGroupAsMissing : FecDecoder γ × List Bytes × Nat :=
  let r := dec.dropGroup groupId
  (r.1, [], r.2)

def withCodec (dataN parityN : Nat) : Option (γ × FecDecoder γ) :=
  match dec.reconstructRs with
  | some c =>
    if dec.reconstructRsData = dataN ∧ dec.reconstructRsParity = parityN then some (c, dec) else build
  | none => build
where
  build : Option (γ × FecDecoder γ) := (rs.new dataN parityN).map fun c =>
    (c, { dec with reconstructRs := some c, reconstructRsData := dataN, reconstructRsParity := parityN })

def reconstructAndExtract : FecDecoder γ × List Bytes × Nat :=
  match dec.groups.lookup groupId with
  | none => (dec, [], 0)
  | some g =>
    match dec.withCodec rs g.dataShards.toNat g.parityShards.toNat with
    | none => dec.takeGroupAsMissing groupId
    | some (c, dec) =>
      match rs.reconstruct c g.received with
      | none => dec.takeGroupAsMissing groupId
      | some received =>
        extractData { dec with groups := dec.groups.insert groupId { g with received := received } } groupId

def settleGroup (g : PartialGroup) (shardsMissing : Nat) : FecDecoder γ × FecDecodeResult :=
  let dec := { dec with groups := dec.groups.insert groupId g }
  let dataCount := ((g.received.take g.dataShards.toNat).filter Option.isSome).length
  if dataCount = g.dataShards.toNat then
    let r := dec.extractData groupId
    (r.1.noteCompleted groupId, .ok r.2.1 1 shardsMissing)
  else if g.dataShards.toNat ≤ g.receivedCount then
    let r := dec.reconstructAndExtract rs groupId
    (r.1.noteCompleted groupId, .ok r.2.1 1 (shardsMissing + r.2.2))
  else (dec, .ok [] 1 shardsMissing)

def addShard (g : PartialGroup) (shardIdx : Nat) (payload : Bytes) (shardsMissing : Nat) :
    FecDecoder γ × FecDecodeResult :=
  let g :=
    { g with received := g.received.set shardIdx (some payload), receivedCount := min (g.receivedCount + 1) 255 }
  dec.settleGroup rs groupId g shardsMissing

def acceptShard (h : ShardHeader) (now : Instant) (order : IterOrder) (shardsMissing : Nat) :
    FecDecoder γ × FecDecodeResult :=
  let payload := h.shardData.take h.shardSize
  let r := if (dec.groups.lookup h.groupId).isNone ∧ dec.maxGroups ≤ HashMap.size dec.groups then
      dec.evictOldestGroup order
    else (dec, 0)
  let dec := r.1
  let shardsMissing := shardsMissing + r.2
  let g := (dec.groups.lookup h.groupId).getD
    ⟨h.dataShards, h.parityShards, h.shardSize, List.replicate h.total none, 0, now⟩
  if g.dataShards ≠ h.dataShards ∨ g.parityShards ≠ h.parityShards ∨ g.shardSize ≠ h.shardSize ∨
      g.received.length ≠ h.total then
    let r := dec.dropGroup h.groupId
    (r.1, .invalidWithMissing (shardsMissing + r.2))
  else if (g.received[h.shardIdx]?).any Option.isSome then (dec, .ok [] 0 shardsMissing)
  else dec.addShard rs h.groupId g h.shardIdx payload shardsMissing

def pushShard (raw : Bytes) (now : Instant) (order : IterOrder) : FecDecoder γ × FecDecodeResult :=
  let r := if fecDecoderEvictInterval ≤ now - dec.lastEvict then
      let r := dec.evictAt now
      ({ r.1 with lastEvict := now }, r.2)
    else (dec, 0)
  let dec := r.1
  let shardsMissing := r.2
  match parseShard raw with
  | none => (dec, .invalidWithMissing shardsMissing)
  | some h =>
    if h.groupId ∈ dec.completedGroups then (dec, .ok [] 0 shardsMissing)
    else if h.Malformed then
      let r := dec.dropGroup h.groupId
      (r.1, .invalidWithMissing (shardsMissing + r.2))
    else dec.acceptShard rs h now order shardsMissing

end FecDecoder

structure Delivery where
  raw : Bytes
  now : Instant
  order : IterOrder

def decoderStep {γ : Type} (rs : Codec γ UInt8) (dec : FecDecoder γ) (a : Delivery) :
    FecDecoder γ × List FecDecodeResult :=
  let r := dec.pushShard rs a.raw a.now a.order
  (r.1, [r.2])

end ConnectUnit.Fec
