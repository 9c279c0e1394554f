import ConnectUnit.Lib.Machine
import ConnectUnit.Fec

/-!
# Soundness of the FEC encoder

Every packet that is pushed leaves the encoder exactly once: as it came, or in a data shard of a group, unless it is
still buffered.
-/

open Machine (Each run stateAt trace)
open List (Forall₂ append_assoc append_nil length_append length_map map_map mem_append mem_map replicate)

namespace ConnectUnit.Fec

variable {size d p : Nat} {pkt : Bytes} {now : Instant} {held : List Bytes} {ops : List EncoderOp}

/-! ## Groups -/

def shardOf (size : Nat) (pkt : Bytes) : Bytes :=
  toLeBytes 2 pkt.length ++ pkt ++ replicate (size - (fecShardLenPrefix + pkt.length)) 0

theorem shardOf_length (h : pkt.length + 2 ≤ size) : (shardOf size pkt).length = size := by
  unfold shardOf fecShardLenPrefix
  simp only [length_append, toLeBytes_length, List.length_replicate]
  omega

structure Group where
  id : UInt32
  packets : List Bytes
  parity : List Bytes

namespace Group

variable (g : Group) (size : Nat)

def data : List Bytes := g.packets.map (shardOf size)

def word : List Bytes := g.data size ++ g.parity

def frame (idx : Nat) (shard : Bytes) : Bytes :=
  buildFecPacket g.id (UInt8.ofNat idx) (UInt8.ofNat g.packets.length) (UInt8.ofNat g.parity.length) shard

def frames : List Bytes := (g.word size).mapIdx g.frame

def blank : List Bytes := g.data size ++ replicate g.parity.length (replicate size 0)

structure Coded {γ : Type} (rs : Codec γ UInt8) : Prop where
  data_pos : 0 < g.packets.length
  parity_pos : 0 < g.parity.length
  total_le : g.packets.length + g.parity.length ≤ 64
  fits : ∀ pkt ∈ g.packets, pkt.length + 2 ≤ size
  parity_size : ∀ x ∈ g.parity, x.length = size
  codeword : ∃ c, rs.new g.packets.length g.parity.length = some c ∧ rs.encode c (g.blank size) = some (g.word size)

end Group

/-! ## Buffers -/

section
variable {γ : Type} (e : FecEncoder γ)

theorem takeShardBuf_spec :
    ∃ pool, e.takeShardBuf = (replicate e.shardPayloadSize 0, { e with shardPool := pool }) := by
  unfold FecEncoder.takeShardBuf
  dsimp only
  split
  · rename_i v pool _
    refine ⟨pool, ?_⟩
    split
    · rename_i hlen; rw [List.map_const', hlen]
    rfl
  · exact ⟨e.shardPool, rfl⟩

theorem takeShardBufs_spec (n : Nat) : ∃ pool, FecEncoder.takeShardBufs n e =
    (replicate n (replicate e.shardPayloadSize 0), { e with shardPool := pool }) := by
  induction n generalizing e with
  | zero => exact ⟨e.shardPool, rfl⟩
  | succ n ih =>
    obtain ⟨pool, h⟩ := takeShardBuf_spec e
    obtain ⟨pool', h'⟩ := ih { e with shardPool := pool }
    refine ⟨pool', ?_⟩
    simp only [FecEncoder.takeShardBufs, h, h', List.replicate_succ]

theorem returnShardBuf_spec (v : Bytes) : ∃ pool, e.returnShardBuf v = { e with shardPool := pool } := by
  unfold FecEncoder.returnShardBuf
  split
  · exact ⟨_, rfl⟩
  exact ⟨e.shardPool, rfl⟩

theorem returnAll_spec {α : Type} (f : α → Bytes) (l : List α) :
    ∃ pool, l.foldl (fun e x => e.returnShardBuf (f x)) e = { e with shardPool := pool } := by
  induction l generalizing e with
  | nil => exact ⟨e.shardPool, rfl⟩
  | cons x l ih =>
    obtain ⟨pool, h⟩ := returnShardBuf_spec e (f x)
    rw [List.foldl_cons, h]
    exact ih _

theorem fillShard_replicate : FecEncoder.fillShard (replicate size 0) pkt = shardOf size pkt := by
  unfold FecEncoder.fillShard shardOf
  rw [List.drop_replicate]

end

/-! ## What a call can do -/

section
variable {γ : Type} (rs : Codec γ UInt8) (L : Nat → Nat → Prop) (e : FecEncoder γ)

def originals : List Bytes := e.shardBuf.map (·.original)

structure Stocked : Prop where
  shards :
    ∀ x ∈ e.shardBuf, x.shard = shardOf e.shardPayloadSize x.original ∧ x.original.length + 2 ≤ e.shardPayloadSize
  cache : ∀ c, e.rsCache = some c → rs.new e.rsCacheData e.rsCacheParity = some c

def Usable (d p : Nat) : Prop :=
  ∀ d' p', 0 < d' → d' ≤ d → 0 < p' → p' ≤ p → d' + p' ≤ 64 → rs.Encodes d' p' ∧ L d' p'

structure SameSetup (e e' : FecEncoder γ) : Prop where
  salt : e'.groupSalt = e.groupSalt
  dataShards : e'.dataShards = e.dataShards
  parityShards : e'.parityShards = e.parityShards
  size : e'.shardPayloadSize = e.shardPayloadSize

inductive Outcome (size : Nat) (id : UInt32) (held : List Bytes) : FecOutput → List Bytes → Prop
  | kept : Outcome size id held .buffered held
  | released : Outcome size id held (.passthrough held) []
  | grouped {g : Group} : g.id = id → g.packets = held → g.Coded size rs → L g.packets.length g.parity.length →
      Outcome size id held (.encoded (g.frames size)) []

theorem withCodec_spec (h : Stocked rs e) (hrs : rs.Encodes d p) : ∃ c, rs.new d p = some c ∧
    e.withCodec rs d p = some (c, { e with rsCache := some c, rsCacheData := d, rsCacheParity := p }) := by
  obtain ⟨c, hc⟩ := hrs.exists_new
  refine ⟨c, hc, ?_⟩
  unfold FecEncoder.withCodec FecEncoder.withCodec.build
  rw [hc]
  split
  · rename_i c' hc'
    split
    · rename_i hsame
      have hnew := h.cache c' hc'
      rw [hsame.1, hsame.2, hc] at hnew
      cases hnew
      rw [← hsame.1, ← hsame.2, ← hc']
    · rfl
  · rfl

theorem takePassthroughPackets_spec (h : Stocked rs e) : e.takePassthroughPackets.2 = originals e ∧ originals
    e.takePassthroughPackets.1 = [] ∧ Stocked rs e.takePassthroughPackets.1 ∧ SameSetup e e.takePassthroughPackets.1 ∧
    e.takePassthroughPackets.1.groupSeq = max (e.groupSeq + 1) 1 := by
  obtain ⟨pool, hpool⟩ := returnAll_spec { e with shardBuf := [] } (fun x : PendingShard => x.shard) e.shardBuf
  unfold FecEncoder.takePassthroughPackets
  dsimp only
  rw [hpool]
  refine ⟨rfl, rfl, ⟨fun x hx => ?_, h.cache⟩, ⟨rfl, rfl, rfl, rfl⟩, rfl⟩
  cases hx

variable {rs L e}

theorem Stocked.data (h : Stocked rs e) :
    e.shardBuf.map (·.shard) = (originals e).map (shardOf e.shardPayloadSize) := by
  unfold originals
  rw [map_map]
  exact List.map_congr_left fun x hx => (h.shards x hx).1

theorem Stocked.fits (h : Stocked rs e) : ∀ pkt ∈ originals e, pkt.length + 2 ≤ e.shardPayloadSize := by
  intro pkt hpkt
  obtain ⟨x, hx, rfl⟩ := mem_map.mp hpkt
  exact (h.shards x hx).2

theorem length_originals : (originals e).length = e.shardBuf.length := length_map _

theorem encodeAndReset_spec (h : Stocked rs e) (hlen : e.shardBuf.length = d) (hd : 0 < d) (hp : 0 < p)
    (hle : d + p ≤ 64) (hrs : rs.Encodes d p) (now : Instant) : ∃ g : Group, g.id = e.currentGroupId ∧ g.packets =
    originals e ∧ g.parity.length = p ∧ g.Coded e.shardPayloadSize rs ∧ (e.encodeAndReset rs d p now).2 = g.frames
    e.shardPayloadSize ∧ originals (e.encodeAndReset rs d p now).1 = [] ∧ Stocked rs (e.encodeAndReset rs d p now).1 ∧
    SameSetup e (e.encodeAndReset rs d p now).1 ∧ (e.encodeAndReset rs d p now).1.groupSeq = max (e.groupSeq + 1)
    1 := by
  obtain ⟨c, hc, hcodec⟩ := withCodec_spec rs e h hrs
  have hlen' : (originals e).length = d := length_originals.trans hlen
  have hsize : 0 < e.shardPayloadSize := by
    obtain ⟨x, hx⟩ := List.exists_mem_of_length_pos (show 0 < e.shardBuf.length by omega)
    have := (h.shards x hx).2
    omega
  have hshards : Codec.Shards ((originals e).map (shardOf e.shardPayloadSize) ++
      replicate p (replicate e.shardPayloadSize 0)) (d + p) e.shardPayloadSize := by
    constructor
    · simp only [length_append, length_map, List.length_replicate, hlen']
    intro x hx
    rcases mem_append.mp hx with hx | hx
    · obtain ⟨pkt, hpkt, rfl⟩ := mem_map.mp hx
      exact shardOf_length (h.fits pkt hpkt)
    rw [List.eq_of_mem_replicate hx, List.length_replicate]
  obtain ⟨parity, henc, hplen, hpsize⟩ := hrs.systematic c _ _ hc hsize hshards
  rw [List.take_left' (by rw [length_map, hlen'])] at henc
  refine ⟨⟨e.currentGroupId, originals e, parity⟩, rfl, rfl, hplen, ?_, ?_⟩
  · refine ⟨by rw [hlen']; exact hd, by rw [hplen]; exact hp, ?_, h.fits, hpsize, c, ?_, ?_⟩
    · rw [hlen', hplen]; exact hle
    · rw [hlen', hplen]; exact hc
    · unfold Group.blank Group.word Group.data
      rw [hplen]
      exact henc
  obtain ⟨pool, hblank⟩ := takeShardBufs_spec { e with rsCache := some c, rsCacheData := d, rsCacheParity := p } p
  have htake : (e.shardBuf.take d).map (·.shard) = (originals e).map (shardOf e.shardPayloadSize) := by
    rw [← hlen, List.take_length, h.data]
  unfold FecEncoder.encodeAndReset
  simp only [hcodec, hlen, Nat.lt_irrefl, if_false, hblank, htake, henc]
  obtain ⟨pool', hret⟩ := returnAll_spec
    { e with rsCache := some c, rsCacheData := d, rsCacheParity := p, shardPool := pool } (fun x : Bytes => x)
    ((originals e).map (shardOf e.shardPayloadSize) ++ parity)
  rw [hret]
  have hdrop : e.shardBuf.drop d = [] := by rw [← hlen, List.drop_length]
  simp only [hdrop, List.isEmpty_nil, if_true]
  refine ⟨?_, rfl, ⟨fun x hx => ?_, fun c' hc' => ?_⟩, ⟨rfl, rfl, rfl, rfl⟩, rfl⟩
  · unfold Group.frames Group.word Group.data Group.frame
    rw [hlen', hplen]
    rfl
  · cases hx
  · cases hc'; exact hc

/-! ## The calls -/

structure Handled (rs : Codec γ UInt8) (L : Nat → Nat → Prop) (e : FecEncoder γ) (held : List Bytes)
    (r : FecEncoder γ × FecOutput) : Prop where
  outcome : Outcome rs L e.shardPayloadSize e.currentGroupId held r.2 (originals r.1)
  stocked : Stocked rs r.1
  setup : SameSetup e r.1

section
variable (h : Stocked rs e)
include h

theorem Stocked.takePassthrough :
    Handled rs L e (originals e) e.takePassthrough ∧ originals e.takePassthrough.1 = [] := by
  obtain ⟨hout, hempty, hstock, hsetup, _⟩ := takePassthroughPackets_spec rs e h
  refine ⟨⟨?_, hstock, hsetup⟩, hempty⟩
  unfold FecEncoder.takePassthrough
  dsimp only
  rw [hempty, hout]
  exact .released

theorem Stocked.encoded (hlen : e.shardBuf.length = d) (hd : 0 < d) (hp : 0 < p)
    (hle : d + p ≤ 64) (hrs : rs.Encodes d p ∧ L d p) : Handled rs L e (originals e)
    ((e.encodeAndReset rs d p now).1, .encoded (e.encodeAndReset rs d p now).2) ∧ originals
    (e.encodeAndReset rs d p now).1 = [] := by
  obtain ⟨g, hid, hpkts, hparity, hcoded, hframes, hempty, hstock, hsetup, _⟩ :=
    encodeAndReset_spec h hlen hd hp hle hrs.1 now
  have hL : L g.packets.length g.parity.length := by
    rw [hpkts, length_originals, hlen, hparity]
    exact hrs.2
  refine ⟨⟨?_, hstock, hsetup⟩, hempty⟩
  dsimp only
  rw [hempty, hframes]
  exact .grouped hid hpkts hcoded hL

theorem Stocked.resetGroupTiming (hb : e.shardBuf.isEmpty) :
    Handled rs L e (originals e) (e.resetGroupTiming, .buffered) ∧ originals e.resetGroupTiming = [] :=
  ⟨⟨.kept, ⟨h.shards, h.cache⟩, ⟨rfl, rfl, rfl, rfl⟩⟩, by
    unfold originals FecEncoder.resetGroupTiming; rw [List.isEmpty_iff.mp hb]; rfl⟩

theorem Stocked.flush (hrs : Usable rs L e.dataShards.toNat e.parityShards.toNat)
    (hlen : e.shardBuf.length ≤ e.dataShards.toNat) {budget : QueueBudget} :
    Handled rs L e (originals e) (e.flush rs budget now) ∧ originals (e.flush rs budget now).1 = [] := by
  unfold FecEncoder.flush
  split
  · rename_i hb; exact h.resetGroupTiming hb
  split
  · exact h.takePassthrough
  rename_i hon
  have hpos : 0 < e.parityShards.toNat := by
    refine Nat.pos_of_ne_zero fun h0 => hon (.inr ?_)
    exact UInt8.toNat_inj.mp h0
  dsimp only
  split
  · exact h.takePassthrough
  rename_i htwo
  generalize (e.shardBuf.length * max e.parityShards.toNat 1 + max e.dataShards.toNat 1 - 1) /
    max e.dataShards.toNat 1 = wanted
  split
  · exact h.takePassthrough
  rename_i hmax
  split
  · exact h.takePassthrough
  have hle := Nat.not_lt.mp hmax
  have hd : 0 < e.shardBuf.length := by omega
  have hp : 0 < max 1 (min wanted (max e.parityShards.toNat 1)) := by omega
  have hp' : max 1 (min wanted (max e.parityShards.toNat 1)) ≤ e.parityShards.toNat := by omega
  exact h.encoded rfl hd hp hle (hrs _ _ hd hlen hp hp' hle)

theorem Stocked.flushPassthrough :
    Handled rs L e (originals e) e.flushPassthrough ∧ originals e.flushPassthrough.1 = [] := by
  unfold FecEncoder.flushPassthrough
  split
  · rename_i hb; exact h.resetGroupTiming hb
  exact h.takePassthrough

theorem Stocked.buffer (hfit : pkt.length + 2 ≤ e.shardPayloadSize) (now : Instant) :
    Stocked rs (e.buffer pkt now) ∧ originals (e.buffer pkt now) = originals e ++ [pkt] ∧ SameSetup e
    (e.buffer pkt now) ∧ (e.buffer pkt now).groupSeq = e.groupSeq ∧ (e.buffer pkt now).shardBuf.length =
    e.shardBuf.length + 1 := by
  unfold FecEncoder.buffer
  dsimp only
  obtain ⟨pool, hbuf⟩ := takeShardBuf_spec { e with
    groupFlushTimeout := min (if e.shardBuf.isEmpty then e.flushStandard else e.groupFlushTimeout)
      (e.flushTimeoutForPolicy (classifyPacket pkt.length))
    firstAt := some (e.firstAt.getD now) }
  rw [hbuf]
  refine ⟨⟨fun x hx => ?_, h.cache⟩, ?_, ⟨rfl, rfl, rfl, rfl⟩, rfl, length_append⟩
  · rcases mem_append.mp hx with hx | hx
    · exact h.shards x hx
    · rw [List.mem_singleton.mp hx]
      exact ⟨fillShard_replicate, hfit⟩
  unfold originals
  rw [List.map_append]
  rfl

end

structure Valid (rs : Codec γ UInt8) (e : FecEncoder γ) : Prop extends Stocked rs e where
  fewer : e.shardBuf ≠ [] → e.shardBuf.length < e.dataShards.toNat

theorem valid_of_empty (h : Stocked rs e) (hempty : originals e = []) : Valid rs e :=
  ⟨h, fun hb => absurd (List.map_eq_nil_iff.mp hempty) hb⟩

theorem withFlush_valid (rs : Codec γ UInt8) (salt : UInt32) (d p : UInt8) (size std agg : Nat) :
    Valid rs (.withFlush salt d p size std agg) :=
  valid_of_empty ⟨fun _ hx => (by cases hx), fun _ hc => (by cases hc)⟩ rfl

section
variable (h : Valid rs e) (hrs : Usable rs L e.dataShards.toNat e.parityShards.toNat)
include h hrs

theorem Valid.pushOutput (pkt : Bytes) (budget : QueueBudget) (now : Instant) :
    (e.pushOutput rs pkt budget now = (e, .passthrough [pkt]) ∨
      Handled rs L e (originals e ++ [pkt]) (e.pushOutput rs pkt budget now)) ∧
      Valid rs (e.pushOutput rs pkt budget now).1 := by
  unfold FecEncoder.pushOutput
  split
  · exact ⟨.inl rfl, h⟩
  rename_i hon
  split
  · exact ⟨.inl rfl, h⟩
  rename_i hfit
  dsimp only
  split
  · exact ⟨.inl rfl, h⟩
  rename_i htotal
  simp only [not_or] at hon htotal
  have hd : 0 < e.dataShards.toNat := Nat.pos_of_ne_zero fun h0 => hon.1 (UInt8.toNat_inj.mp h0)
  have hp : 0 < e.parityShards.toNat := Nat.pos_of_ne_zero fun h0 => hon.2 (UInt8.toNat_inj.mp h0)
  have hlt : e.shardBuf.length < e.dataShards.toNat := by
    by_cases hb : e.shardBuf = []
    · rw [hb]; exact hd
    exact h.fewer hb
  obtain ⟨hs, horig, hsetup, hseq, hlen⟩ := h.toStocked.buffer (Nat.not_lt.mp hfit) now
  generalize e.buffer pkt now = e₁ at hs horig hsetup hseq hlen
  rw [← hsetup.dataShards] at hd hlt hrs
  rw [← hsetup.parityShards] at hp hrs
  -- What holds of the filled buffer holds of the call.
  have hlift : ∀ r : FecEncoder γ × FecOutput, Handled rs L e₁ (originals e₁) r →
      Handled rs L e (originals e ++ [pkt]) r := by
    intro r hr
    have hid : e₁.currentGroupId = e.currentGroupId := by
      unfold FecEncoder.currentGroupId; rw [hsetup.salt, hseq]
    have hout := hr.outcome
    rw [horig, hid, hsetup.size] at hout
    exact ⟨hout, hr.stocked, ⟨hr.setup.salt.trans hsetup.salt, hr.setup.dataShards.trans hsetup.dataShards,
      hr.setup.parityShards.trans hsetup.parityShards, hr.setup.size.trans hsetup.size⟩⟩
  have hdone : ∀ r : FecEncoder γ × FecOutput, Handled rs L e₁ (originals e₁) r ∧ originals r.1 = [] →
      (r = (e, .passthrough [pkt]) ∨ Handled rs L e (originals e ++ [pkt]) r) ∧ Valid rs r.1 :=
    fun r hr => ⟨.inr (hlift r hr.1), valid_of_empty hr.1.stocked hr.2⟩
  split
  · rename_i hfull
    have hfull' : e₁.shardBuf.length = e₁.dataShards.toNat := by omega
    split
    · exact hdone _ hs.takePassthrough
    have hle : e₁.dataShards.toNat + e₁.parityShards.toNat ≤ 64 := by
      rw [hsetup.dataShards, hsetup.parityShards]
      exact Nat.not_lt.mp htotal.2
    exact hdone _ (hs.encoded hfull' hd hp hle (hrs _ _ hd (le_refl _) hp (le_refl _) hle))
  rename_i hroom
  split
  · exact hdone _ (hs.flush hrs (by omega))
  refine ⟨.inr (hlift _ ⟨.kept, hs, ⟨rfl, rfl, rfl, rfl⟩⟩), hs, fun _ => Nat.not_le.mp hroom⟩

theorem Valid.flush
    (budget : QueueBudget) (now : Instant) : Handled rs L e (originals e) (e.flush rs budget now) ∧ originals
    (e.flush rs budget now).1 = [] := by
  refine h.toStocked.flush hrs ?_
  by_cases hb : e.shardBuf = []
  · rw [hb]; exact Nat.zero_le _
  exact Nat.le_of_lt (h.fewer hb)

theorem Valid.updateRatioWithFlush
    (d p : UInt8) (budget : QueueBudget) (now : Instant) : Outcome rs L e.shardPayloadSize e.currentGroupId
    (originals e) (e.updateRatioWithFlush rs d p budget now).2
    (originals (e.updateRatioWithFlush rs d p budget now).1) ∧ Valid rs (e.updateRatioWithFlush rs d p budget now).1 ∧
    (e.updateRatioWithFlush rs d p budget now).1.shardPayloadSize = e.shardPayloadSize := by
  unfold FecEncoder.updateRatioWithFlush
  split
  · exact ⟨.kept, h, rfl⟩
  obtain ⟨hh, hempty⟩ := h.flush hrs budget now
  have hout := hh.outcome
  rw [hempty] at hout
  exact ⟨hout, valid_of_empty ⟨fun _ hx => (by cases hx), hh.stocked.cache⟩ rfl, hh.setup.size⟩

end

/-! ## Accounts -/

end

def pushed : EncoderOp → List Bytes
  | .pushOutput pkt _ _ => [pkt]
  | _ => []

def passed : FecOutput → List Bytes
  | .passthrough pkts => pkts
  | _ => []

def groupFrames : FecOutput → Option (List Bytes)
  | .encoded pkts => some pkts
  | _ => none

structure Accounts {γ : Type} (rs : Codec γ UInt8) (L : Nat → Nat → Prop) (size : Nat) (packets : List Bytes)
    (outs : List FecOutput) (buffered : List Bytes) (groups : List Group) : Prop where
  coded : ∀ g ∈ groups, g.Coded size rs ∧ L g.packets.length g.parity.length
  frames : outs.filterMap groupFrames = groups.map (·.frames size)
  perm : packets.Perm (outs.flatMap passed ++ groups.flatMap (·.packets) ++ buffered)
  order : (groups.flatMap (·.packets) ++ buffered).Sublist packets

section
variable {γ : Type} {rs : Codec γ UInt8} {L : Nat → Nat → Prop} {size : Nat}
variable {e : FecEncoder γ}

theorem Outcome.accounts {id : UInt32} {buffered : List Bytes} {out : FecOutput}
    (h : Outcome rs L size id held out buffered) : ∃ groups, Accounts rs L size held [out] buffered groups := by
  cases h with
  | kept => exact ⟨[], fun _ hg => (by cases hg), rfl, .refl _, .refl _⟩
  | released =>
    refine ⟨[], fun _ hg => (by cases hg), rfl, ?_, List.nil_sublist _⟩
    simp [passed]
  | @grouped g _ hp hc hL =>
    refine ⟨[g], fun g' hg' => ?_, rfl, ?_, ?_⟩
    · rw [List.mem_singleton.mp hg']; exact ⟨hc, hL⟩
    · simp [passed, hp]
    simp [hp]

theorem accounts_direct : Accounts rs L size (held ++ [pkt]) [.passthrough [pkt]] held [] := by
  refine ⟨fun _ hg => (by cases hg), rfl, ?_, List.sublist_append_left _ _⟩
  exact List.perm_append_comm

theorem Accounts.trans {packets more mid last : List Bytes} {outs outs' : List FecOutput}
    {groups groups' : List Group}
    (h : Accounts rs L size packets outs mid groups) (h' : Accounts rs L size (mid ++ more) outs' last groups') :
    Accounts rs L size (packets ++ more) (outs ++ outs') last (groups ++ groups') where
  coded := by
    intro g hg
    rcases mem_append.mp hg with hg | hg
    · exact h.coded g hg
    exact h'.coded g hg
  frames := by rw [List.filterMap_append, List.map_append, h.frames, h'.frames]
  perm := by
    have h₁ := h.perm.append_right more
    rw [append_assoc] at h₁
    refine h₁.trans ((h'.perm.append_left _).trans ?_)
    simp only [List.flatMap_append, append_assoc]
    exact List.Perm.append_left _ (List.perm_append_comm_assoc _ _ _)
  order := by
    have h₁ := h.order.append_right more
    rw [append_assoc] at h₁
    refine List.Sublist.trans ?_ h₁
    rw [List.flatMap_append, append_assoc]
    exact h'.order.append_left _

theorem step_accounts (h : Valid rs e) (hrs : Usable rs L e.dataShards.toNat e.parityShards.toNat)
    (op : EncoderOp) : Valid rs (encoderStep rs e op).1 ∧ (encoderStep rs e op).1.shardPayloadSize =
    e.shardPayloadSize ∧ ∃ groups, Accounts rs L e.shardPayloadSize (originals e ++ pushed op) (encoderStep rs e op).2
    (originals (encoderStep rs e op).1) groups := by
  cases op with
  | pushOutput pkt budget now =>
    obtain ⟨hout, hvalid⟩ := h.pushOutput hrs pkt budget now
    refine ⟨hvalid, ?_, ?_⟩
    · rcases hout with hout | hout
      · show (e.pushOutput rs pkt budget now).1.shardPayloadSize = _; rw [hout]
      · exact hout.setup.size
    show ∃ groups, Accounts rs L e.shardPayloadSize _ [(e.pushOutput rs pkt budget now).2]
      (originals (e.pushOutput rs pkt budget now).1) groups
    rcases hout with hout | hout
    · rw [hout]; exact ⟨[], accounts_direct⟩
    exact hout.outcome.accounts
  | updateRatioWithFlush d p budget now =>
    obtain ⟨hout, hvalid, hsize⟩ := h.updateRatioWithFlush hrs d p budget now
    refine ⟨hvalid, hsize, ?_⟩
    rw [show pushed (.updateRatioWithFlush d p budget now) = [] from rfl, append_nil]
    exact hout.accounts
  | flush budget now =>
    obtain ⟨hh, hempty⟩ := h.flush hrs budget now
    refine ⟨valid_of_empty hh.stocked hempty, hh.setup.size, ?_⟩
    rw [show pushed (.flush budget now) = [] from rfl, append_nil]
    exact hh.outcome.accounts
  | flushPassthrough =>
    obtain ⟨hh, hempty⟩ : Handled rs L e _ _ ∧ _ := h.toStocked.flushPassthrough
    refine ⟨valid_of_empty hh.stocked hempty, hh.setup.size, ?_⟩
    rw [show pushed .flushPassthrough = [] from rfl, append_nil]
    exact hh.outcome.accounts

/-- A call that does not change the ratio. -/
def EncoderOp.keepsRatio : EncoderOp → Prop
  | .updateRatioWithFlush .. => False
  | _ => True

theorem step_setup (h : Valid rs e) (hrs : Usable rs L e.dataShards.toNat e.parityShards.toNat)
    {op : EncoderOp} (hop : op.keepsRatio) : SameSetup e (encoderStep rs e op).1 := by
  cases op with
  | pushOutput pkt budget now =>
    rcases (h.pushOutput hrs pkt budget now).1 with hout | hout
    · show SameSetup e (e.pushOutput rs pkt budget now).1
      rw [hout]
      exact ⟨rfl, rfl, rfl, rfl⟩
    · exact hout.setup
  | updateRatioWithFlush d p budget now => cases hop
  | flush budget now => exact (h.flush hrs budget now).1.setup
  | flushPassthrough =>
    obtain ⟨hh, _⟩ : Handled rs L e _ _ ∧ _ := h.toStocked.flushPassthrough
    exact hh.setup

theorem run_accounts (h : Valid rs e)
    (hrs : Each (encoderStep rs) e ops fun e _ => Usable rs L e.dataShards.toNat e.parityShards.toNat) : Valid
    rs (run (encoderStep rs) e ops) ∧ ∃ groups, Accounts rs L e.shardPayloadSize
    (originals e ++ ops.flatMap pushed) (trace (encoderStep rs) e ops)
    (originals (run (encoderStep rs) e ops)) groups := by
  induction ops generalizing e with
  | nil =>
    rw [show originals e ++ ([] : List EncoderOp).flatMap pushed = originals e from append_nil _]
    exact ⟨h, [], fun _ hg => (by cases hg), rfl, .refl _, .refl _⟩
  | cons op ops ih =>
    obtain ⟨hvalid, hsize, groups, hacc⟩ := step_accounts h (hrs 0 op rfl) op
    obtain ⟨hvalid', groups', hacc'⟩ := ih hvalid fun i a ha => hrs (i + 1) a ha
    rw [hsize] at hacc'
    refine ⟨hvalid', groups ++ groups', ?_⟩
    rw [List.flatMap_cons, ← append_assoc]
    exact hacc.trans hacc'

theorem run_accounts_fixed (h : Valid rs e) (hrs : Usable rs L e.dataShards.toNat e.parityShards.toNat)
    (hops : ∀ op ∈ ops, op.keepsRatio) : ∃ groups, Accounts rs L e.shardPayloadSize
    (originals e ++ ops.flatMap pushed) (trace (encoderStep rs) e ops)
    (originals (run (encoderStep rs) e ops)) groups := by
  have hkeep : ∀ i, Valid rs (stateAt (encoderStep rs) e ops i) ∧ SameSetup e (stateAt (encoderStep rs) e ops i) := by
    have heach : Each (encoderStep rs) e ops fun _ op => op.keepsRatio :=
      fun i op hop => hops op (List.mem_of_getElem? hop)
    refine Machine.invariant (P := fun e' => Valid rs e' ∧ SameSetup e e') ⟨h, rfl, rfl, rfl, rfl⟩ ?_ heach
    intro e' op hop he'
    have hrs' : Usable rs L e'.dataShards.toNat e'.parityShards.toNat := by
      rw [he'.2.dataShards, he'.2.parityShards]; exact hrs
    have hsetup := step_setup he'.1 hrs' hop
    exact ⟨(step_accounts he'.1 hrs' op).1, hsetup.salt.trans he'.2.salt, hsetup.dataShards.trans he'.2.dataShards,
      hsetup.parityShards.trans he'.2.parityShards, hsetup.size.trans he'.2.size⟩
  refine (run_accounts h fun i op _ => ?_).2
  dsimp only
  rw [(hkeep i).2.dataShards, (hkeep i).2.parityShards]
  exact hrs

end

/-! ## Reading frames -/

section
variable {α β δ : Type}
variable {l : List α} {f : Nat → α → β}

theorem filterMap_mapIdx_of_some {h : β → Option α}
    (hf : ∀ i x, l[i]? = some x → h (f i x) = some x) : (l.mapIdx f).filterMap h = l := by
  induction l generalizing f with
  | nil => rfl
  | cons a l ih =>
    rw [List.mapIdx_cons, List.filterMap_cons_some (hf 0 a rfl), ih fun i x hx => hf (i + 1) x hx]

theorem filterMap_mapIdx_of_none {h : β → Option δ}
    (hf : ∀ i x, l[i]? = some x → h (f i x) = none) : (l.mapIdx f).filterMap h = [] := by
  induction l generalizing f with
  | nil => rfl
  | cons a l ih =>
    rw [List.mapIdx_cons, List.filterMap_cons_none (hf 0 a rfl), ih fun i x hx => hf (i + 1) x hx]

end

theorem parseShard_build {groupId : UInt32} {idx d p : UInt8} {shard : Bytes} : parseShard
    (buildFecPacket groupId idx d p shard) = some
    ⟨groupId, idx.toNat, d, p, fromLeBytes (toLeBytes 2 shard.length), shard⟩ := by
  have hid : fromLeBytes (toLeBytes 4 groupId.toNat) = groupId.toNat :=
    fromLeBytes_toLeBytes 4 groupId.toNat groupId.toNat_lt
  have hparse : parseShard (buildFecPacket groupId idx d p shard) = some ⟨UInt32.ofNat (fromLeBytes
      (toLeBytes 4 groupId.toNat)), idx.toNat, d, p, fromLeBytes (toLeBytes 2 shard.length), shard⟩ := rfl
  rw [hparse, hid, UInt32.ofNat_toNat]

def dataShardsOf (frames : List Bytes) : List Bytes :=
  frames.filterMap fun f => (parseShard f).bind fun h =>
    if h.shardIdx < h.dataShards.toNat then some h.shardData else none

/-- The data shards of a group are those of these packets. -/
def Stores (size : Nat) (frames packets : List Bytes) : Prop := dataShardsOf frames = packets.map (shardOf size)

def storedPackets (frames : List Bytes) : List Bytes := (dataShardsOf frames).filterMap shardPacket

theorem toNat_ofNat_small {n : Nat} (h : n ≤ 64) : (UInt8.ofNat n).toNat = n := by
  rw [UInt8.toNat_ofNat']
  omega

theorem Group.Coded.stores {γ : Type} {rs : Codec γ UInt8} {g : Group} (h : g.Coded size rs) :
    Stores size (g.frames size) g.packets := by
  have hd : (UInt8.ofNat g.packets.length).toNat = g.packets.length :=
    toNat_ofNat_small (by have := h.total_le; omega)
  have hlen : (g.data size).length = g.packets.length := length_map _
  unfold Stores dataShardsOf Group.frames Group.word
  rw [List.mapIdx_append, List.filterMap_append, filterMap_mapIdx_of_some, filterMap_mapIdx_of_none, append_nil]
  · rfl
  · intro i x hx
    have hi := (List.getElem?_eq_some_iff.mp hx).1
    have hidx : (UInt8.ofNat (i + (g.data size).length)).toNat = i + (g.data size).length :=
      toNat_ofNat_small (by have := h.total_le; omega)
    unfold Group.frame
    rw [parseShard_build]
    simp only [Option.bind_some, hidx, hd]
    rw [if_neg (by omega)]
  intro i x hx
  have hi := (List.getElem?_eq_some_iff.mp hx).1
  have hidx : (UInt8.ofNat i).toNat = i := toNat_ofNat_small (by have := h.total_le; omega)
  unfold Group.frame
  rw [parseShard_build]
  simp only [Option.bind_some, hidx, hd]
  rw [if_pos (by omega)]

theorem shardPacket_shardOf (hfit : pkt.length + 2 ≤ size) (hlen : pkt.length < 65536) :
    shardPacket (shardOf size pkt) = some pkt := by
  have htake : (shardOf size pkt).take 2 = toLeBytes 2 pkt.length := rfl
  have hdrop : (shardOf size pkt).drop fecShardLenPrefix =
      pkt ++ replicate (size - (fecShardLenPrefix + pkt.length)) 0 := rfl
  unfold shardPacket
  rw [htake, hdrop, fromLeBytes_toLeBytes 2 _ hlen, shardOf_length hfit]
  dsimp only
  rw [if_neg (by unfold fecShardLenPrefix; omega), List.take_left' rfl]

/-! ## Conservation -/

section
variable {γ : Type} {rs : Codec γ UInt8} {size : Nat}

theorem stores_of_coded {groups : List Group} (h : ∀ g ∈ groups, g.Coded size rs) :
    Forall₂ (Stores size) (groups.map (·.frames size)) (groups.map (·.packets)) := by
  induction groups with
  | nil => exact .nil
  | cons g groups ih =>
    exact .cons (h g List.mem_cons_self).stores (ih fun g' hg' => h g' (List.mem_cons_of_mem g hg'))

theorem Group.Coded.storedPackets {g : Group} (h : g.Coded size rs) (hsize : size ≤ 65537) :
    storedPackets (g.frames size) = g.packets := by
  unfold Fec.storedPackets
  rw [h.stores, List.filterMap_map]
  refine (List.filterMap_congr fun pkt hpkt => ?_).trans List.filterMap_some
  have := h.fits pkt hpkt
  exact shardPacket_shardOf this (by omega)

/-- Every packet that has been pushed was handed back as it came, or is in a data shard of an encoded
group, or is still buffered; nothing occurs twice, and the buffer keeps the order and stays short of a
full group. -/
theorem encoder_conserves (rs : Codec γ UInt8) (hrs : ∀ d p, 0 < d → 0 < p → d + p ≤ 64 → rs.Encodes d p)
    (salt : UInt32) (d p : UInt8) (size std agg : Nat) (ops : List EncoderOp) :
    ∃ stored : List (List Bytes), Forall₂ (Stores size)
        ((trace (encoderStep rs) (.withFlush salt d p size std agg) ops).filterMap groupFrames) stored ∧
      (ops.flatMap pushed).Perm
        ((trace (encoderStep rs) (.withFlush salt d p size std agg) ops).flatMap passed ++ stored.flatten ++
          originals (run (encoderStep rs) (.withFlush salt d p size std agg) ops)) ∧
      (originals (run (encoderStep rs) (.withFlush salt d p size std agg) ops)).Sublist (ops.flatMap pushed) ∧
      ((run (encoderStep rs) (.withFlush salt d p size std agg) ops).dataShards ≠ 0 →
        (run (encoderStep rs) (.withFlush salt d p size std agg) ops).parityShards ≠ 0 →
        (originals (run (encoderStep rs) (.withFlush salt d p size std agg) ops)).length <
          (run (encoderStep rs) (.withFlush salt d p size std agg) ops).dataShards.toNat) ∧
      (size ≤ 65537 → stored =
        ((trace (encoderStep rs) (.withFlush salt d p size std agg) ops).filterMap groupFrames).map
          storedPackets) := by
  have hu : ∀ d p, Usable rs (fun _ _ => True) d p := fun _ _ d' p' hd _ hp _ hle => ⟨hrs d' p' hd hp hle, trivial⟩
  obtain ⟨hvalid, groups, hacc⟩ := run_accounts (withFlush_valid rs salt d p size std agg) fun _ _ _ => hu _ _
  generalize run (encoderStep rs) (.withFlush salt d p size std agg) ops = e at hvalid hacc
  refine ⟨groups.map (·.packets), ?_, ?_, ?_, ?_, ?_⟩
  · rw [hacc.frames]; exact stores_of_coded fun g hg => (hacc.coded g hg).1
  · rw [← List.flatMap_def]; exact hacc.perm
  · exact (List.sublist_append_right _ _).trans hacc.order
  · intro hd _
    rw [length_originals]
    by_cases hb : e.shardBuf = []
    · rw [hb]
      exact Nat.pos_of_ne_zero fun h0 => hd (UInt8.toNat_inj.mp h0)
    exact hvalid.fewer hb
  · intro hsize
    rw [hacc.frames, map_map]
    exact List.map_congr_left fun g hg => ((hacc.coded g hg).1.storedPackets hsize).symm

end

/-! A codec that leaves the parity shards blank is enough for the encoder. -/

def blankCodec : Codec Unit UInt8 where
  new _ _ := some ()
  encode _ shards := some shards
  reconstruct _ _ := none

theorem blankCodec_encodes (d p : Nat) : blankCodec.Encodes d p where
  exists_new := ⟨(), rfl⟩
  systematic := by
    intro c shards size _ _ h
    refine ⟨shards.drop d, ?_, ?_, fun x hx => h.2 x (List.mem_of_mem_drop hx)⟩
    · rw [List.take_append_drop]; rfl
    rw [List.length_drop, h.1]; omega

def mixedCalls : List EncoderOp :=
  [.pushOutput (replicate 300 7) none 0, .pushOutput [1] none 1, .pushOutput (replicate 300 8) none 2,
    .updateRatioWithFlush 4 2 none 3, .pushOutput (replicate 300 9) none 4]

/-- Two packets go out in a group, one as it came, and one is still buffered. -/
theorem mixedCalls_conserved : ∃ stored : List (List Bytes), Forall₂ (Stores 512)
      ((trace (encoderStep blankCodec) (.withFlush 5 4 1 512 2 1) mixedCalls).filterMap groupFrames) stored ∧
    (mixedCalls.flatMap pushed).Perm
      ((trace (encoderStep blankCodec) (.withFlush 5 4 1 512 2 1) mixedCalls).flatMap passed ++ stored.flatten ++
        originals (run (encoderStep blankCodec) (.withFlush 5 4 1 512 2 1) mixedCalls)) := by
  obtain ⟨stored, hstores, hperm, _⟩ :=
    encoder_conserves blankCodec (fun d p _ _ _ => blankCodec_encodes d p) 5 4 1 512 2 1 mixedCalls
  exact ⟨stored, hstores, hperm⟩

end ConnectUnit.Fec
