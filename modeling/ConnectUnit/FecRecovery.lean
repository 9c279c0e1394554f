import ConnectUnit.FecSound

/-!
# Recovery of FEC groups

What a decoder holds after some shards of some groups have arrived is a function of which shards have arrived: nothing
of a group that is complete, and a mask over its word otherwise.
-/

open Machine (emitAt trace)
open List (getElem?_map length_map length_replicate map_cons map_map mem_append mem_map mem_singleton mem_toFinset replicate take_subset)

namespace ConnectUnit.Fec

variable {g : Group} {idx p n size : Nat} {shard : Bytes} {now : Instant} {e : FecEncoder Nat} {b : UInt8}
variable {seq : UInt32}

/-! ## Deliveries -/

/-- The delivery of shard `idx` of the group `group`. -/
structure Shipment (ι : Type) where
  group : ι
  idx : Nat
  now : Instant
  order : IterOrder

section
variable {ι : Type} [DecidableEq ι]
variable {ds : List (Shipment ι)} {x : Shipment ι} {a : ι}

def groupsOf (ds : List (Shipment ι)) : Finset ι := (ds.map (·.group)).toFinset

def arrived (ds : List (Shipment ι)) (a : ι) : Finset Nat := ((ds.filter (·.group = a)).map (·.idx)).toFinset

theorem mem_groupsOf_append : a ∈ groupsOf (ds ++ [x]) ↔ a ∈ groupsOf ds ∨ a = x.group := by
  simp [groupsOf, or_comm]

theorem arrived_append_self : arrived (ds ++ [x]) x.group = insert x.idx (arrived ds x.group) := by
  ext i
  simp [arrived]

theorem arrived_append_other (h : a ≠ x.group) : arrived (ds ++ [x]) a = arrived ds a := by
  have h' : ¬ x.group = a := fun he => h he.symm
  simp [arrived, h']

theorem arrived_of_notMem (h : a ∉ groupsOf ds) : arrived ds a = ∅ := by
  unfold arrived
  rw [List.filter_eq_nil_iff.mpr, List.map_nil, List.toFinset_nil]
  intro x hx hxa
  refine h (mem_toFinset.mpr (mem_map.mpr ⟨x, hx, ?_⟩))
  exact of_decide_eq_true hxa

end

section
variable {γ ι : Type} [DecidableEq ι] (rs : Codec γ UInt8) (size : Nat) (grp : ι → Group)
variable {a : ι} {dec' : FecDecoder γ} {ds' : List (Shipment ι)} {x : Shipment ι}

def Shipment.delivery (x : Shipment ι) : Delivery where
  raw := (((grp x.group).frames size)[x.idx]?).getD []
  now := x.now
  order := x.order

def needed (a : ι) : Nat := (grp a).packets.length

def Complete (ds : List (Shipment ι)) (a : ι) : Prop := needed grp a ≤ (arrived ds a).card

instance (ds : List (Shipment ι)) (a : ι) : Decidable (Complete grp ds a) := Nat.decLe _ _

def heldGroup (ds : List (Shipment ι)) (a : ι) (createdAt : Instant) : PartialGroup where
  dataShards := UInt8.ofNat (grp a).packets.length
  parityShards := UInt8.ofNat (grp a).parity.length
  shardSize := size
  received := mask ((grp a).word size) (arrived ds a)
  receivedCount := (arrived ds a).card
  createdAt := createdAt

structure Holding (ds : List (Shipment ι)) (dec : FecDecoder γ) : Prop where
  unknown : ∀ id, (∀ a ∈ groupsOf ds, (grp a).id ≠ id) → dec.groups.lookup id = none ∧ id ∉ dec.completedGroups
  done : ∀ a ∈ groupsOf ds, Complete grp ds a →
    dec.groups.lookup (grp a).id = none ∧ (grp a).id ∈ dec.completedGroups
  pending : ∀ a ∈ groupsOf ds, ¬ Complete grp ds a →
    (∃ t, dec.groups.lookup (grp a).id = some (heldGroup size grp ds a t)) ∧ (grp a).id ∉ dec.completedGroups
  nodup : dec.completedGroups.Nodup
  cache : ∀ c, dec.reconstructRs = some c → rs.new dec.reconstructRsData dec.reconstructRsParity = some c
  capacity : dec.maxGroups = 256

theorem holding_new : Holding rs size grp [] (.new now) where
  unknown id _ := ⟨rfl, fun h => (by cases h)⟩
  done a h := (by cases h)
  pending a h := (by cases h)
  nodup := .nil
  cache c h := (by cases h)
  capacity := rfl

structure Elsewhere (id : UInt32) (dec dec' : FecDecoder γ) : Prop where
  groups : ∀ id', id' ≠ id → dec'.groups.lookup id' = dec.groups.lookup id'
  completed : ∀ id', id' ≠ id → (id' ∈ dec'.completedGroups ↔ id' ∈ dec.completedGroups)

variable {rs size grp}

section
variable {ds : List (Shipment ι)} {dec dec' : FecDecoder γ} {x : Shipment ι}

theorem Complete.append (h : Complete grp ds x.group) : Complete grp (ds ++ [x]) x.group := by
  unfold Complete at *
  rw [arrived_append_self]
  exact h.trans (Finset.card_le_card (Finset.subset_insert _ _))

theorem complete_other (h : a ≠ x.group) : Complete grp (ds ++ [x]) a ↔ Complete grp ds a := by
  unfold Complete
  rw [arrived_append_other h]

theorem heldGroup_other (h : a ≠ x.group) {t : Instant} :
    heldGroup size grp (ds ++ [x]) a t = heldGroup size grp ds a t := by
  unfold heldGroup
  rw [arrived_append_other h]

theorem Holding.append (h : Holding rs size grp ds dec)
    (hinj : ∀ a ∈ groupsOf (ds ++ [x]), ∀ b ∈ groupsOf (ds ++ [x]), (grp a).id = (grp b).id → a = b)
    (hels : Elsewhere (grp x.group).id dec dec')
    (hdone : Complete grp (ds ++ [x]) x.group →
      dec'.groups.lookup (grp x.group).id = none ∧ (grp x.group).id ∈ dec'.completedGroups)
    (hpend : ¬ Complete grp (ds ++ [x]) x.group →
      (∃ t, dec'.groups.lookup (grp x.group).id = some (heldGroup size grp (ds ++ [x]) x.group t)) ∧
        (grp x.group).id ∉ dec'.completedGroups)
    (hnodup : dec'.completedGroups.Nodup)
    (hcache : ∀ c, dec'.reconstructRs = some c → rs.new dec'.reconstructRsData dec'.reconstructRsParity = some c)
    (hcap : dec'.maxGroups = dec.maxGroups) : Holding rs size grp (ds ++ [x]) dec' := by
  have hself : x.group ∈ groupsOf (ds ++ [x]) := mem_groupsOf_append.mpr (.inr rfl)
  have hne : ∀ a ∈ groupsOf (ds ++ [x]), a ≠ x.group → (grp a).id ≠ (grp x.group).id :=
    fun a ha hax he => hax (hinj a ha _ hself he)
  refine ⟨?_, ?_, ?_, hnodup, hcache, hcap.trans h.capacity⟩
  · intro id hid
    have hidx : id ≠ (grp x.group).id := fun he => hid _ hself he.symm
    have hold := h.unknown id fun a ha => hid a (mem_groupsOf_append.mpr (.inl ha))
    exact ⟨(hels.groups id hidx).trans hold.1, fun hmem => hold.2 ((hels.completed id hidx).mp hmem)⟩
  · intro a ha hc
    by_cases hax : a = x.group
    · subst hax; exact hdone hc
    have ha' : a ∈ groupsOf ds := (mem_groupsOf_append.mp ha).resolve_right hax
    have hold := h.done a ha' ((complete_other hax).mp hc)
    exact ⟨(hels.groups _ (hne a ha hax)).trans hold.1, (hels.completed _ (hne a ha hax)).mpr hold.2⟩
  intro a ha hc
  by_cases hax : a = x.group
  · subst hax; exact hpend hc
  have ha' : a ∈ groupsOf ds := (mem_groupsOf_append.mp ha).resolve_right hax
  obtain ⟨⟨t, ht⟩, hnot⟩ := h.pending a ha' fun hcd => hc ((complete_other hax).mpr hcd)
  refine ⟨⟨t, ?_⟩, fun hmem => hnot ((hels.completed _ (hne a ha hax)).mp hmem)⟩
  rw [hels.groups _ (hne a ha hax), ht, heldGroup_other hax]

/-! ## Reading a shard -/

theorem Group.Coded.length_word : (g.word size).length = g.packets.length + g.parity.length := by
  unfold Group.word Group.data
  rw [List.length_append, length_map]

theorem Group.Coded.size_word (h : g.Coded size rs) : ∀ shard ∈ g.word size, shard.length = size := by
  intro shard hs
  rcases mem_append.mp hs with hs | hs
  · obtain ⟨pkt, hpkt, rfl⟩ := mem_map.mp hs
    exact shardOf_length (h.fits pkt hpkt)
  exact h.parity_size shard hs

def headerOf (size : Nat) (g : Group) (idx : Nat) (shard : Bytes) : ShardHeader :=
  ⟨g.id, idx, UInt8.ofNat g.packets.length, UInt8.ofNat g.parity.length, size, shard⟩

section
variable (h : g.Coded size rs)
include h

theorem parse_frame (hsize : size ≤ 1279) (hs : (g.word size)[idx]? = some shard) : parseShard
    (((g.frames size)[idx]?).getD []) = some (headerOf size g idx shard) := by
  have hidx : idx < g.packets.length + g.parity.length := by
    rw [← Group.Coded.length_word]; exact (List.getElem?_eq_some_iff.mp hs).1
  have hlen : shard.length = size := h.size_word shard (List.mem_of_getElem? hs)
  have hle := h.total_le
  unfold Group.frames headerOf
  rw [List.getElem?_mapIdx, hs, Option.map_some, Option.getD_some, Group.frame, parseShard_build,
    toNat_ofNat_small (by omega), hlen, fromLeBytes_toLeBytes 2 size (by omega)]

theorem headerOf_wellFormed (hlo : 2 < size) (hsize : size ≤ 1279)
    (hs : (g.word size)[idx]? = some shard) : ¬ (headerOf size g idx shard).Malformed ∧
    (headerOf size g idx shard).total = g.packets.length + g.parity.length := by
  have hidx : idx < g.packets.length + g.parity.length := by
    rw [← Group.Coded.length_word]; exact (List.getElem?_eq_some_iff.mp hs).1
  have hlen : shard.length = size := h.size_word shard (List.mem_of_getElem? hs)
  have hle := h.total_le
  have hd := h.data_pos
  have htotal : (headerOf size g idx shard).total = g.packets.length + g.parity.length := by
    unfold ShardHeader.total headerOf
    rw [toNat_ofNat_small (by omega), toNat_ofNat_small (by omega)]
  refine ⟨?_, htotal⟩
  unfold ShardHeader.Malformed fecMaxTotalShards fecShardLenPrefix fecShardPayloadSize
  rw [htotal]
  simp only [headerOf, hlen]
  omega

theorem Group.Coded.shards_blank : Codec.Shards (g.blank size) (g.packets.length + g.parity.length) size := by
  constructor
  · unfold Group.blank Group.data
    simp only [List.length_append, length_map, length_replicate]
  intro y hy
  rcases mem_append.mp hy with hy | hy
  · obtain ⟨pkt, hpkt, rfl⟩ := mem_map.mp hy
    exact shardOf_length (h.fits pkt hpkt)
  rw [List.eq_of_mem_replicate hy, length_replicate]

theorem recovered_packets (hsize : size ≤ 1279) :
    (((g.word size).take g.packets.length).map some).filterMap (fun shard => shard.bind shardPacket) = g.packets := by
  unfold Group.word Group.data
  rw [List.take_left' (length_map _), map_map, List.filterMap_map]
  refine (List.filterMap_congr fun pkt hpkt => ?_).trans List.filterMap_some
  have := h.fits pkt hpkt
  exact shardPacket_shardOf this (by omega)

end

/-! ## Codecs -/

theorem decoder_withCodec_spec (dec : FecDecoder γ) {d : Nat}
    (hcache : ∀ c, dec.reconstructRs = some c → rs.new dec.reconstructRsData dec.reconstructRsParity = some c)
    {c : γ} (hc : rs.new d p = some c) : dec.withCodec rs d p =
      some (c, { dec with reconstructRs := some c, reconstructRsData := d, reconstructRsParity := p }) := by
  unfold FecDecoder.withCodec FecDecoder.withCodec.build
  rw [hc]
  split
  · rename_i c' hc'
    split
    · rename_i hsame
      have hnew := hcache c' hc'
      rw [hsame.1, hsame.2, hc] at hnew
      cases hnew
      rw [← hsame.1, ← hsame.2, ← hc']
    · rfl
  · rfl

/-! ## A new shard -/

section
variable {ds : List (Shipment ι)} {dec : FecDecoder γ} {x : Shipment ι}

theorem noteCompleted_eq (dec : FecDecoder γ) (id : UInt32) (hlen : dec.completedGroups.length < 128) :
    dec.noteCompleted id = { dec with completedGroups := dec.completedGroups ++ [id] } := by
  unfold FecDecoder.noteCompleted fecCompletedGroupsCap
  rw [if_neg (Nat.not_le.mpr hlen)]

theorem card_arrived_new (hnew : x.idx ∉ arrived ds x.group) :
    (arrived (ds ++ [x]) x.group).card = (arrived ds x.group).card + 1 := by
  rw [arrived_append_self, Finset.card_insert_of_notMem hnew]

theorem heldGroup_set (hs : ((grp x.group).word size)[x.idx]? = some shard)
    (hnew : x.idx ∉ arrived ds x.group) (hcard : (arrived ds x.group).card ≤ 64) {t : Instant} :
    { heldGroup size grp ds x.group t with
        received := (heldGroup size grp ds x.group t).received.set x.idx (some shard)
        receivedCount := min ((heldGroup size grp ds x.group t).receivedCount + 1) 255 } =
      heldGroup size grp (ds ++ [x]) x.group t := by
  have hset : (mask ((grp x.group).word size) (arrived ds x.group)).set x.idx (some shard) =
      mask ((grp x.group).word size) (arrived (ds ++ [x]) x.group) := by
    rw [set_mask _ _ hs, arrived_append_self]
  have hcount : min ((arrived ds x.group).card + 1) 255 = (arrived (ds ++ [x]) x.group).card := by
    rw [card_arrived_new hnew]; omega
  unfold heldGroup
  simp only [hset, hcount]

structure Added (rs : Codec γ UInt8) (size : Nat) (grp : ι → Group) (ds : List (Shipment ι)) (x : Shipment ι)
    (dec dec' : FecDecoder γ) (recovered : List Bytes) : Prop where
  elsewhere : Elsewhere (grp x.group).id dec dec'
  packets : recovered = if Complete grp (ds ++ [x]) x.group then (grp x.group).packets else []
  done : Complete grp (ds ++ [x]) x.group →
    dec'.groups.lookup (grp x.group).id = none ∧ dec'.completedGroups = dec.completedGroups ++ [(grp x.group).id]
  pending : ¬ Complete grp (ds ++ [x]) x.group →
    (∃ t, dec'.groups.lookup (grp x.group).id = some (heldGroup size grp (ds ++ [x]) x.group t)) ∧
      dec'.completedGroups = dec.completedGroups
  cache : ∀ c, dec'.reconstructRs = some c → rs.new dec'.reconstructRsData dec'.reconstructRsParity = some c
  capacity : dec'.maxGroups = dec.maxGroups

theorem elsewhere_completed {id : UInt32} {dec' : FecDecoder γ}
    (hg : ∀ id', id' ≠ id → dec'.groups.lookup id' = dec.groups.lookup id')
    (hc : dec'.completedGroups = dec.completedGroups ++ [id]) : Elsewhere id dec dec' := by
  refine ⟨hg, fun id' hne => ?_⟩
  rw [hc, mem_append, mem_singleton]
  exact ⟨fun h => h.resolve_right hne, .inl⟩

theorem lookup_erase_insert {id : UInt32} {m : HashMap UInt32 PartialGroup} {g : PartialGroup} {id' : UInt32} :
    (AList.erase id (m.insert id g)).lookup id' = if id' = id then none else m.lookup id' := by
  rw [HashMap.lookup_erase_eq]
  by_cases h : id' = id
  · rw [if_pos h, if_pos h]
  rw [if_neg h, if_neg h, HashMap.lookup_insert_eq, if_neg h]

theorem extractData_insert (dec : FecDecoder γ) (id : UInt32) (g : PartialGroup) :
    { dec with groups := dec.groups.insert id g }.extractData id =
      ({ dec with groups := AList.erase id (dec.groups.insert id g) },
        (g.received.take g.dataShards.toNat).filterMap fun shard =>
          shard.bind shardPacket, groupShardsMissing g) := by
  unfold FecDecoder.extractData
  simp only [AList.lookup_insert]

theorem Added.of_complete (hc : Complete grp (ds ++ [x]) x.group) {dec' : FecDecoder γ} {g : PartialGroup}
    (hgroups : dec'.groups = AList.erase (grp x.group).id (dec.groups.insert (grp x.group).id g))
    (hcompleted : dec'.completedGroups = dec.completedGroups ++ [(grp x.group).id])
    (hcache : ∀ c, dec'.reconstructRs = some c → rs.new dec'.reconstructRsData dec'.reconstructRsParity = some c)
    (hcapacity : dec'.maxGroups = dec.maxGroups) : Added rs size grp ds x dec dec' (grp x.group).packets where
  elsewhere := elsewhere_completed (fun id' hne => by rw [hgroups, lookup_erase_insert, if_neg hne]) hcompleted
  packets := (if_pos hc).symm
  done _ := ⟨by rw [hgroups, lookup_erase_insert, if_pos rfl], hcompleted⟩
  pending hnc := absurd hc hnc
  cache := hcache
  capacity := hcapacity

section
variable (hcache : ∀ c, dec.reconstructRs = some c → rs.new dec.reconstructRsData dec.reconstructRsParity = some c) (hcoded : (grp x.group).Coded size rs) (hcorr : rs.Corrects (grp x.group).packets.length (grp x.group).parity.length)
include hcache hcoded hcorr

theorem reconstructAndExtract_held (hlo : 2 < size) (hsize : size ≤ 1279)
    (hrange : arrived ds x.group ⊆ Finset.range ((grp x.group).packets.length + (grp x.group).parity.length))
    (hc : Complete grp ds x.group) (t : Instant) : ∃ c g,
      rs.new (grp x.group).packets.length (grp x.group).parity.length = some c ∧
      FecDecoder.reconstructAndExtract rs
          { dec with groups := dec.groups.insert (grp x.group).id (heldGroup size grp ds x.group t) }
            (grp x.group).id =
        ({ dec with
            groups := AList.erase (grp x.group).id (dec.groups.insert (grp x.group).id g), reconstructRs := some c
            reconstructRsData := (grp x.group).packets.length, reconstructRsParity := (grp x.group).parity.length },
          (grp x.group).packets, groupShardsMissing g) := by
  have hle := hcoded.total_le
  have hn : (heldGroup size grp ds x.group t).dataShards.toNat = (grp x.group).packets.length :=
    toNat_ofNat_small (by omega)
  have hp : (heldGroup size grp ds x.group t).parityShards.toNat = (grp x.group).parity.length :=
    toNat_ofNat_small (by omega)
  obtain ⟨c, hnew, henc⟩ := hcoded.codeword
  have hcodec := decoder_withCodec_spec
    { dec with groups := dec.groups.insert (grp x.group).id (heldGroup size grp ds x.group t) } hcache hnew
  have hrec :
      rs.reconstruct c (heldGroup size grp ds x.group t).received = some (((grp x.group).word size).map some) :=
    hcorr.reconstructs c _ size _ _ hnew (by omega) hcoded.shards_blank henc hrange hc
  refine ⟨c, { heldGroup size grp ds x.group t with received := ((grp x.group).word size).map some }, hnew, ?_⟩
  unfold FecDecoder.reconstructAndExtract
  simp only [AList.lookup_insert, hn, hp, hcodec, hrec]
  unfold FecDecoder.extractData
  simp only [AList.lookup_insert, AList.insert_insert]
  rw [hn, ← List.map_take, recovered_packets hcoded hsize]

theorem addShard_spec (hlo : 2 < size)
    (hsize : size ≤ 1279) (hs : ((grp x.group).word size)[x.idx]? = some shard) (hnew : x.idx ∉ arrived ds x.group)
    (hrange : arrived (ds ++ [x]) x.group ⊆ Finset.range ((grp x.group).packets.length + (grp x.group).parity.length))
    (hfew : dec.completedGroups.length < 128) (t : Instant) (missing : Nat) : Added rs size grp ds x dec
    (dec.addShard rs (grp x.group).id (heldGroup size grp ds x.group t) x.idx shard missing).1
    (dec.addShard rs (grp x.group).id (heldGroup size grp ds x.group t) x.idx shard missing).2.recovered := by
  have hle := hcoded.total_le
  have hcard := Finset.card_le_card hrange
  rw [Finset.card_range] at hcard
  have hcard' : (arrived ds x.group).card ≤ 64 := by rw [card_arrived_new hnew] at hcard; omega
  have hlen : (grp x.group).packets.length ≤ ((grp x.group).word size).length := by
    rw [Group.Coded.length_word]; omega
  have hn : (heldGroup size grp (ds ++ [x]) x.group t).dataShards.toNat = (grp x.group).packets.length :=
    toNat_ofNat_small (by omega)
  unfold FecDecoder.addShard
  simp only [heldGroup_set hs hnew hcard']
  unfold FecDecoder.settleGroup
  simp only [hn]
  split
  · -- every data shard is there
    rename_i hdata
    replace hdata := (known_take_mask_iff _ _ hlen).mp hdata
    have hsub : Finset.range (grp x.group).packets.length ⊆ arrived (ds ++ [x]) x.group :=
      fun i hi => hdata i (Finset.mem_range.mp hi)
    have hc : Complete grp (ds ++ [x]) x.group := by
      have := Finset.card_le_card hsub
      rw [Finset.card_range] at this
      exact this
    rw [extractData_insert, noteCompleted_eq]
    case hlen => exact hfew
    have hpackets : ((heldGroup size grp (ds ++ [x]) x.group t).received.take (grp x.group).packets.length).filterMap
        (fun shard => shard.bind shardPacket) = (grp x.group).packets := by
      unfold heldGroup
      rw [take_mask _ _ fun i hi _ => hdata i hi]
      exact recovered_packets hcoded hsize
    simp only [FecDecodeResult.ok, hn, hpackets]
    exact Added.of_complete hc rfl rfl hcache rfl
  · split
    · -- enough shards are there
      rename_i hc
      obtain ⟨c, g, hcodec, heq⟩ := reconstructAndExtract_held hcache hcoded hcorr hlo hsize hrange hc t
      rw [heq, noteCompleted_eq]
      case hlen => exact hfew
      refine Added.of_complete hc rfl rfl (fun c' hc' => ?_) rfl
      cases hc'
      exact hcodec
    · rename_i hnc
      refine ⟨⟨fun id' hne => ?_, fun _ _ => .rfl⟩, (if_neg hnc).symm, fun hc => absurd hc hnc,
        fun _ => ⟨⟨t, ?_⟩, rfl⟩, hcache, rfl⟩
      · rw [HashMap.lookup_insert_eq, if_neg hne]
      rw [AList.lookup_insert]

end

/-! ## One delivery -/

structure Channel (rs : Codec γ UInt8) (size : Nat) (grp : ι → Group) (ds : List (Shipment ι)) : Prop where
  coded : ∀ x ∈ ds, (grp x.group).Coded size rs
  corrects : ∀ x ∈ ds, rs.Corrects (grp x.group).packets.length (grp x.group).parity.length
  inRange : ∀ x ∈ ds, x.idx < (grp x.group).packets.length + (grp x.group).parity.length
  distinct : ∀ a ∈ groupsOf ds, ∀ b ∈ groupsOf ds, (grp a).id = (grp b).id → a = b
  few : (groupsOf ds).card ≤ 128

theorem Channel.arrived_subset (h : Channel rs size grp ds) (a : ι) :
    arrived ds a ⊆ Finset.range ((grp a).packets.length + (grp a).parity.length) := by
  intro i hi
  simp only [arrived, mem_toFinset, mem_map, List.mem_filter, decide_eq_true_eq] at hi
  obtain ⟨x, ⟨hx, rfl⟩, rfl⟩ := hi
  exact Finset.mem_range.mpr (h.inRange x hx)

theorem Holding.complete_of_mem (h : Holding rs size grp ds dec) {id : UInt32} (hid : id ∈ dec.completedGroups) :
    ∃ a ∈ groupsOf ds, (grp a).id = id ∧ Complete grp ds a := by
  by_contra hno
  have hnone : ∀ a ∈ groupsOf ds, (grp a).id ≠ id := by
    intro a ha he
    subst he
    by_cases hc : Complete grp ds a
    · exact hno ⟨a, ha, rfl, hc⟩
    exact (h.pending a ha hc).2 hid
  exact (h.unknown id hnone).2 hid

theorem groupsOf_subset_append : groupsOf ds ⊆ groupsOf (ds ++ [x]) :=
  fun _ ha => mem_groupsOf_append.mpr (.inl ha)

section
variable (h : Holding rs size grp ds dec) (hch : Channel rs size grp (ds ++ [x]))
include h hch

theorem Holding.completed_lt (hc : ¬ Complete grp ds x.group) : dec.completedGroups.length < 128 := by
  have hsub : dec.completedGroups.toFinset ⊆ ((groupsOf (ds ++ [x])).erase x.group).image fun a => (grp a).id := by
    intro id hid
    obtain ⟨a, ha, he, hca⟩ := h.complete_of_mem (mem_toFinset.mp hid)
    have hax : a ≠ x.group := fun heq => hc (heq ▸ hca)
    exact Finset.mem_image.mpr ⟨a, Finset.mem_erase.mpr ⟨hax, groupsOf_subset_append ha⟩, he⟩
  have hself : x.group ∈ groupsOf (ds ++ [x]) := mem_groupsOf_append.mpr (.inr rfl)
  have hcard := (Finset.card_le_card hsub).trans Finset.card_image_le
  rw [List.toFinset_card_of_nodup h.nodup, Finset.card_erase_of_mem hself] at hcard
  have hpos := Finset.card_pos.mpr ⟨_, hself⟩
  have := hch.few
  omega

theorem Holding.size_lt : HashMap.size dec.groups < 256 := by
  have hsub : dec.groups.keys.toFinset ⊆ (groupsOf ds).image fun a => (grp a).id := by
    intro id hid
    by_contra hno
    have hnone := (h.unknown id fun a ha he => hno (Finset.mem_image.mpr ⟨a, ha, he⟩)).1
    exact AList.lookup_eq_none.mp hnone (AList.mem_keys.mpr (mem_toFinset.mp hid))
  have hcard := (Finset.card_le_card hsub).trans Finset.card_image_le
  rw [List.toFinset_card_of_nodup dec.groups.keys_nodup] at hcard
  have hle : (groupsOf ds).card ≤ (groupsOf (ds ++ [x])).card := Finset.card_le_card groupsOf_subset_append
  have := hch.few
  have hkeys : dec.groups.keys.length = HashMap.size dec.groups := length_map _
  omega

end

omit [DecidableEq ι] in
theorem evict_eq (hlive : ∀ id g, dec.groups.lookup id = some g → x.now - g.createdAt < dec.groupTtl) :
    (dec.evictAt x.now).1 = dec := by
  have hret : (dec.groups.retain fun _ g => x.now - g.createdAt < dec.groupTtl) = dec.groups := by
    refine AList.ext (List.filter_eq_self.mpr fun e he => ?_)
    exact decide_eq_true (hlive e.1 e.2 ((HashMap.lookup_eq_some_iff _).mpr he))
  unfold FecDecoder.evictAt
  rw [hret]

section
variable (h : Holding rs size grp ds dec) (hch : Channel rs size grp (ds ++ [x]))
include h hch

theorem Holding.found (hc : ¬ Complete grp ds x.group) (now : Instant) :
    ∃ t, (dec.groups.lookup (grp x.group).id).getD ⟨UInt8.ofNat (grp x.group).packets.length,
      UInt8.ofNat (grp x.group).parity.length, size,
      replicate ((grp x.group).packets.length + (grp x.group).parity.length) none, 0, now⟩ =
        heldGroup size grp ds x.group t := by
  by_cases hmem : x.group ∈ groupsOf ds
  · obtain ⟨⟨t, ht⟩, _⟩ := h.pending x.group hmem hc
    exact ⟨t, by rw [ht, Option.getD_some]⟩
  have hself : x.group ∈ groupsOf (ds ++ [x]) := mem_groupsOf_append.mpr (.inr rfl)
  have hnone := (h.unknown (grp x.group).id fun a ha he =>
    hmem (hch.distinct a (groupsOf_subset_append ha) _ hself he ▸ ha)).1
  refine ⟨now, ?_⟩
  rw [hnone, Option.getD_none]
  unfold heldGroup
  rw [arrived_of_notMem hmem, mask_empty, Group.Coded.length_word, Finset.card_empty]

theorem Holding.acceptShard (hlo : 2 < size)
    (hsize : size ≤ 1279) (hc : ¬ Complete grp ds x.group) (hs : ((grp x.group).word size)[x.idx]? = some shard)
    (missing : Nat) : Holding rs size grp (ds ++ [x])
    (dec.acceptShard rs (headerOf size (grp x.group) x.idx shard) x.now x.order missing).1 ∧
    (dec.acceptShard rs (headerOf size (grp x.group) x.idx shard) x.now x.order missing).2.recovered = if Complete grp
    (ds ++ [x]) x.group then (grp x.group).packets else [] := by
  have hx : x ∈ ds ++ [x] := List.mem_append_right _ (List.mem_singleton_self x)
  have hcoded := hch.coded x hx
  obtain ⟨_, htotal⟩ := headerOf_wellFormed hcoded hlo hsize hs
  have hroom : ¬ ((dec.groups.lookup (headerOf size (grp x.group) x.idx shard).groupId).isNone ∧
      dec.maxGroups ≤ HashMap.size dec.groups) := by
    intro hfull
    have hcap := h.capacity
    have hlt := h.size_lt hch
    omega
  obtain ⟨t, ht⟩ := h.found hch hc x.now
  have hpayload : shard.take size = shard :=
    List.take_of_length_le (le_of_eq (hcoded.size_word shard (List.mem_of_getElem? hs)))
  unfold FecDecoder.acceptShard
  dsimp only
  rw [htotal, if_neg hroom]
  simp only [headerOf, ht, hpayload]
  rw [if_neg]
  case hnc =>
    simp only [heldGroup, length_mask, Group.Coded.length_word, ne_eq, not_true_eq_false, or_self, not_false_eq_true]
  have hget : (heldGroup size grp ds x.group t).received[x.idx]? =
      some (if x.idx ∈ arrived ds x.group then some shard else none) := by
    unfold heldGroup
    rw [getElem?_mask, hs, Option.map_some]
  rw [hget]
  by_cases hold : x.idx ∈ arrived ds x.group
  · -- A shard that is there already changes nothing.
    have hsame : arrived (ds ++ [x]) x.group = arrived ds x.group := by
      rw [arrived_append_self, Finset.insert_eq_of_mem hold]
    have hc' : ¬ Complete grp (ds ++ [x]) x.group := by unfold Complete; rw [hsame]; exact hc
    have hmem : x.group ∈ groupsOf ds := by
      by_contra hno
      rw [arrived_of_notMem hno] at hold
      cases hold
    have hheld : ∀ t, heldGroup size grp (ds ++ [x]) x.group t = heldGroup size grp ds x.group t := by
      intro t; unfold heldGroup; rw [hsame]
    rw [if_pos hold, if_neg hc']
    simp only [Option.any_some, Option.isSome_some, if_true]
    refine ⟨h.append hch.distinct ⟨fun _ _ => rfl, fun _ _ => .rfl⟩ (fun hcc => absurd hcc hc') (fun _ => ?_) h.nodup
      h.cache rfl, rfl⟩
    obtain ⟨⟨t', ht'⟩, hnot⟩ := h.pending x.group hmem hc
    exact ⟨⟨t', by rw [ht', hheld]⟩, hnot⟩
  · rw [if_neg hold]
    simp only [Option.any_some, Option.isSome_none, Bool.false_eq_true, if_false]
    have hfew := h.completed_lt hch hc
    have hadd :=
      addShard_spec h.cache hcoded (hch.corrects x hx) hlo hsize hs hold (hch.arrived_subset x.group) hfew t
      (missing + 0)
    have hfresh : (grp x.group).id ∉ dec.completedGroups := by
      intro hmem
      obtain ⟨a, ha, he, hca⟩ := h.complete_of_mem hmem
      have hself : x.group ∈ groupsOf (ds ++ [x]) := mem_groupsOf_append.mpr (.inr rfl)
      exact hc (hch.distinct a (groupsOf_subset_append ha) _ hself he ▸ hca)
    refine ⟨h.append hch.distinct hadd.elsewhere (fun hcc => ?_) (fun hcc => ?_) ?_ hadd.cache hadd.capacity,
      hadd.packets⟩
    · obtain ⟨hl, hcomp⟩ := hadd.done hcc
      refine ⟨hl, ?_⟩
      rw [hcomp]
      exact List.mem_append_right _ (List.mem_singleton_self _)
    · obtain ⟨hl, hcomp⟩ := hadd.pending hcc
      exact ⟨hl, by rw [hcomp]; exact hfresh⟩
    by_cases hcc : Complete grp (ds ++ [x]) x.group
    · rw [(hadd.done hcc).2]
      exact List.nodup_append.mpr ⟨h.nodup, List.nodup_singleton _, fun a ha b hb he =>
        hfresh (mem_singleton.mp hb ▸ he ▸ ha)⟩
    · rw [(hadd.pending hcc).2]; exact h.nodup

theorem Holding.pushShard (hlo : 2 < size)
    (hsize : size ≤ 1279) (hlive : ∀ id g, dec.groups.lookup id = some g → x.now - g.createdAt < dec.groupTtl) :
    Holding rs size grp (ds ++ [x]) (dec.pushShard rs (x.delivery size grp).raw x.now x.order).1 ∧
    (dec.pushShard rs (x.delivery size grp).raw x.now x.order).2.recovered = if ¬ Complete grp ds x.group ∧ Complete
    grp (ds ++ [x]) x.group then (grp x.group).packets else [] := by
  have hx : x ∈ ds ++ [x] := List.mem_append_right _ (List.mem_singleton_self x)
  have hcoded := hch.coded x hx
  have hself : x.group ∈ groupsOf (ds ++ [x]) := mem_groupsOf_append.mpr (.inr rfl)
  obtain ⟨shard, hs⟩ : ∃ shard, ((grp x.group).word size)[x.idx]? = some shard := by
    have hlt : x.idx < ((grp x.group).word size).length := by rw [Group.Coded.length_word]; exact hch.inRange x hx
    exact ⟨_, List.getElem?_eq_getElem hlt⟩
  -- The eviction that may come first drops nothing.
  obtain ⟨dec₁, missing, hdec, h₁⟩ : ∃ dec₁ missing, (if fecDecoderEvictInterval ≤ x.now - dec.lastEvict then
      ({ (dec.evictAt x.now).1 with lastEvict := x.now }, (dec.evictAt x.now).2) else (dec, 0)) = (dec₁, missing) ∧
      Holding rs size grp ds dec₁ := by
    rw [evict_eq hlive]
    split
    · exact ⟨_, _, rfl, ⟨h.unknown, h.done, h.pending, h.nodup, h.cache, h.capacity⟩⟩
    exact ⟨_, _, rfl, h⟩
  unfold FecDecoder.pushShard Shipment.delivery
  simp only [hdec, parse_frame hcoded hsize hs]
  split
  · rename_i hmem
    obtain ⟨a, ha, he, hca⟩ := h₁.complete_of_mem hmem
    have hax : a = x.group := hch.distinct a (groupsOf_subset_append ha) _ hself he
    subst hax
    rw [if_neg fun hboth => hboth.1 hca]
    refine ⟨h₁.append hch.distinct ⟨fun _ _ => rfl, fun _ _ => .rfl⟩ (fun _ => h₁.done _ ha hca)
      (fun hnc => absurd hca.append hnc) h₁.nodup h₁.cache rfl, rfl⟩
  rename_i hmem
  have hc : ¬ Complete grp ds x.group := by
    intro hc
    by_cases hin : x.group ∈ groupsOf ds
    · exact hmem (h₁.done _ hin hc).2
    unfold Complete needed at hc
    rw [arrived_of_notMem hin, Finset.card_empty] at hc
    have := hcoded.data_pos
    omega
  obtain ⟨hwf, _⟩ := headerOf_wellFormed hcoded hlo hsize hs
  rw [if_neg hwf]
  obtain ⟨hhold, hrec⟩ := h₁.acceptShard hch hlo hsize hc hs missing
  refine ⟨hhold, hrec.trans ?_⟩
  by_cases hcc : Complete grp (ds ++ [x]) x.group
  · rw [if_pos hcc, if_pos ⟨hc, hcc⟩]
  rw [if_neg hcc, if_neg fun hboth => hcc hboth.2]

end

end

end

/-! ## Whole runs -/

section
variable {ds : List (Shipment ι)}

theorem arrived_mono (h : ds' ⊆ ds) : arrived ds' a ⊆ arrived ds a := by
  intro i hi
  simp only [arrived, mem_toFinset, mem_map, List.mem_filter] at hi ⊢
  obtain ⟨x, ⟨hx, hxa⟩, hxi⟩ := hi
  exact ⟨x, ⟨h hx, hxa⟩, hxi⟩

theorem Complete.mono (h : Complete grp ds' a) (hsub : ds' ⊆ ds) : Complete grp ds a :=
  h.trans (Finset.card_le_card (arrived_mono hsub))

theorem Channel.mono (h : Channel rs size grp ds) (hsub : ds' ⊆ ds) : Channel rs size grp ds' := by
  have hgroups : groupsOf ds' ⊆ groupsOf ds := by
    intro a ha
    simp only [groupsOf, mem_toFinset, mem_map] at ha ⊢
    obtain ⟨x, hx, hxa⟩ := ha
    exact ⟨x, hsub hx, hxa⟩
  exact ⟨fun x hx => h.coded x (hsub hx), fun x hx => h.corrects x (hsub hx), fun x hx => h.inRange x (hsub hx),
    fun a ha b hb => h.distinct a (hgroups ha) b (hgroups hb), (Finset.card_le_card hgroups).trans h.few⟩

omit [DecidableEq ι] in
theorem take_subset_take {m : Nat} (h : m ≤ n) : ds.take m ⊆ ds.take n := by
  rw [← Nat.min_eq_left h, ← List.take_take]
  exact take_subset _ _

variable (size grp ds) in
def decoderAt (rs : Codec γ UInt8) (now : Instant) (n : Nat) : FecDecoder γ :=
  Machine.stateAt (decoderStep rs) (.new now) (ds.map (·.delivery size grp)) n

variable (size grp ds) in
/-- The packets that the delivery `n` returns. -/
def returned (rs : Codec γ UInt8) (now : Instant) (n : Nat) : List Bytes :=
  (emitAt (decoderStep rs) (.new now) (ds.map (·.delivery size grp)) n).flatMap (·.recovered)

variable (rs size grp ds) in
/-- No group expires while it waits for its shards. -/
def Unexpired (now : Instant) : Prop :=
  ∀ n x, ds[n]? = some x → ∀ id g, (decoderAt size grp ds rs now n).groups.lookup id = some g →
    x.now - g.createdAt < (decoderAt size grp ds rs now n).groupTtl

omit [DecidableEq ι] in
theorem delivery_at {size : Nat} {grp : ι → Group} (hx : ds[n]? = some x) :
    (ds.map (·.delivery size grp))[n]? = some (x.delivery size grp) := by
  rw [getElem?_map, hx]
  rfl

theorem Channel.take_add_one (hch : Channel rs size grp ds) (hx : ds[n]? = some x) :
    ds.take (n + 1) = ds.take n ++ [x] ∧ Channel rs size grp (ds.take n ++ [x]) := by
  have htake : ds.take (n + 1) = ds.take n ++ [x] := by
    rw [List.take_add_one, hx]
    rfl
  exact ⟨htake, htake ▸ hch.mono (take_subset _ _)⟩

theorem holding_at (hch : Channel rs size grp ds) (hlo : 2 < size) (hsize : size ≤ 1279)
    (hlive : Unexpired rs size grp ds now) :
    Holding rs size grp (ds.take n) (decoderAt size grp ds rs now n) := by
  induction n with
  | zero => exact holding_new rs size grp
  | succ n ih =>
    cases hx : ds[n]? with
    | none =>
      have hnone : (ds.map (·.delivery size grp))[n]? = none := by rw [getElem?_map, hx]; rfl
      unfold decoderAt at ih ⊢
      rw [Machine.stateAt_succ_of_none _ _ _ hnone, List.take_add_one, hx]
      simpa using ih
    | some x =>
      obtain ⟨htake, hch'⟩ := hch.take_add_one hx
      have hstep := (ih.pushShard hch' hlo hsize (hlive n x hx)).1
      unfold decoderAt at hstep ⊢
      rw [Machine.stateAt_succ _ _ _ (delivery_at hx), htake]
      exact hstep

theorem returned_eq (hch : Channel rs size grp ds) (hlo : 2 < size) (hsize : size ≤ 1279)
    (hlive : Unexpired rs size grp ds now) (hx : ds[n]? = some x) : returned size grp ds rs now n = if ¬ Complete grp
    (ds.take n) x.group ∧ Complete grp (ds.take (n + 1)) x.group then (grp x.group).packets else [] := by
  obtain ⟨htake, hch'⟩ := hch.take_add_one hx
  have hrec := ((holding_at hch hlo hsize hlive).pushShard hch' hlo hsize (hlive n x hx)).2
  unfold returned emitAt
  rw [delivery_at hx, htake]
  exact (List.append_nil _).trans hrec

theorem exists_completing (hpos : 0 < needed grp a) (hc : Complete grp ds a) :
    ∃ n x, ds[n]? = some x ∧ x.group = a ∧ ¬ Complete grp (ds.take n) a ∧ Complete grp (ds.take (n + 1)) a := by
  have hex : ∃ k, Complete grp (ds.take k) a := ⟨ds.length, by rw [List.take_length]; exact hc⟩
  have hfound := Nat.find_spec hex
  have hfirst : ∀ m, m < Nat.find hex → ¬ Complete grp (ds.take m) a := fun m hm => Nat.find_min hex hm
  generalize Nat.find hex = k at hfound hfirst
  cases k with
  | zero =>
    unfold Complete at hfound
    rw [List.take_zero, show arrived ([] : List (Shipment ι)) a = ∅ from rfl, Finset.card_empty] at hfound
    omega
  | succ n =>
    have hbefore := hfirst n (Nat.lt_succ_self n)
    cases hx : ds[n]? with
    | none =>
      rw [List.take_add_one, hx, Option.toList_none, List.append_nil] at hfound
      exact absurd hfound hbefore
    | some x =>
      refine ⟨n, x, hx, ?_, hbefore, hfound⟩
      by_contra hne
      rw [List.take_add_one, hx, Option.toList_some, complete_other fun he => hne he.symm] at hfound
      exact hbefore hfound

/-- What becomes of one group: its packets come with the call that completes it and with no other. -/
structure Recovers (rs : Codec γ UInt8) (size : Nat) (grp : ι → Group) (ds : List (Shipment ι)) (now : Instant)
    (a : ι) :
    Prop where
  whole : Complete grp ds a → ∃ n x, ds[n]? = some x ∧ x.group = a ∧
    ¬ Complete grp (ds.take n) a ∧ Complete grp (ds.take (n + 1)) a ∧
    returned size grp ds rs now n = (grp a).packets ∧
    ∀ m y, m ≠ n → ds[m]? = some y → y.group = a → returned size grp ds rs now m = []
  partially : ¬ Complete grp ds a → ∀ m y, ds[m]? = some y → y.group = a → returned size grp ds rs now m = []

theorem Channel.recovers (hch : Channel rs size grp ds) (hlo : 2 < size) (hsize : size ≤ 1279)
    (hlive : Unexpired rs size grp ds now) (hpos : 0 < needed grp a) : Recovers rs size grp ds now a where
  whole := by
    intro hc
    obtain ⟨n, x, hx, hxa, hbefore, hafter⟩ := exists_completing hpos hc
    refine ⟨n, x, hx, hxa, hbefore, hafter, ?_, ?_⟩
    · subst hxa
      rw [returned_eq hch hlo hsize hlive hx, if_pos ⟨hbefore, hafter⟩]
    intro m y hmn hy hya
    subst hya
    rw [returned_eq hch hlo hsize hlive hy]
    refine if_neg fun hboth => ?_
    rcases Nat.lt_or_gt_of_ne hmn with hlt | hlt
    · exact hbefore (hboth.2.mono (take_subset_take hlt))
    exact hboth.1 (hafter.mono (take_subset_take hlt))
  partially := by
    intro hc m y hy hya
    subst hya
    rw [returned_eq hch hlo hsize hlive hy]
    exact if_neg fun hboth => hc (hboth.2.mono (take_subset _ _))

end

end

/-! ## From the encoder to the decoder -/

section
variable {γ : Type}

/-- What is emitted at a ratio and delivered, in any order and with any loss and repetition, is
recovered group by group. -/
theorem fec_recovers (rs : Codec γ UInt8) (salt : UInt32) (d p : UInt8) (hlo : 2 < size) (hsize : size ≤ 1279)
    (hrs : ∀ d' p', 0 < d' → d' ≤ d.toNat → 0 < p' → p' ≤ p.toNat → d' + p' ≤ 64 → rs.Corrects d' p') (std agg : Nat)
    (ops : List EncoderOp) (hops : ∀ op ∈ ops, op.keepsRatio) : ∃ groups : List Group,
    (trace (encoderStep rs) (.withFlush salt d p size std agg) ops).filterMap groupFrames = groups.map
    (·.frames size) ∧ groups.map (·.packets) =
    ((trace (encoderStep rs) (.withFlush salt d p size std agg) ops).filterMap groupFrames).map storedPackets
    ∧ (groups.flatMap (·.packets)).Sublist (ops.flatMap pushed) ∧ ∀ (now : Instant)
    (ds : List (Shipment (Fin groups.length))), (∀ x ∈ ds, x.idx < ((groups.get x.group).frames size).length) →
    (groupsOf ds).card ≤ 128 → (∀ a ∈ groupsOf ds, ∀ b ∈ groupsOf ds, (groups.get a).id = (groups.get b).id → a = b) →
    Unexpired rs size groups.get ds now → ∀ a, Recovers rs size groups.get ds now a := by
  have hu : Usable rs rs.Corrects d.toNat p.toNat :=
    fun d' p' hd hd' hp hp' hle => ⟨(hrs d' p' hd hd' hp hp' hle).toEncodes, hrs d' p' hd hd' hp hp' hle⟩
  obtain ⟨groups, hacc⟩ := run_accounts_fixed (withFlush_valid rs salt d p size std agg) hu hops
  have hmem :
      ∀ a, (groups.get a).Coded size rs ∧ rs.Corrects (groups.get a).packets.length (groups.get a).parity.length :=
    fun a => hacc.coded _ (List.get_mem groups a)
  refine ⟨groups, hacc.frames, ?_, (List.sublist_append_left _ _).trans hacc.order, ?_⟩
  · rw [hacc.frames, map_map]
    exact List.map_congr_left fun g hg => ((hacc.coded g hg).1.storedPackets (show size ≤ 65537 by omega)).symm
  intro now ds hidx hfew hdistinct hlive a
  have hch : Channel rs size groups.get ds := by
    refine ⟨fun x _ => (hmem x.group).1, fun x _ => (hmem x.group).2, fun x hx => ?_, hdistinct, hfew⟩
    have hlt := hidx x hx
    rw [Group.frames, List.length_mapIdx, Group.Coded.length_word] at hlt
    exact hlt
  exact hch.recovers hlo hsize hlive (hmem a).1.data_pos

end

/-! ### One data shard, repeated -/

/-- Every parity shard is the data shard again. -/
def repetition : Codec Nat UInt8 where
  new d p := if d = 1 then some p else none
  encode p shards := shards.head?.map fun x => x :: replicate p x
  reconstruct p shards := (shards.filterMap id).head?.map fun x => some x :: replicate p (some x)

theorem repetition_new {c : Nat} (h : repetition.new 1 p = some c) : c = p := by cases h; rfl

theorem repetition_encode {shards : List Bytes} (h : Codec.Shards shards (1 + p) size) :
    ∃ x, shards.take 1 = [x] ∧ x.length = size ∧ repetition.encode p shards = some (x :: replicate p x) := by
  cases shards with
  | nil => have := h.1; rw [List.length_nil] at this; omega
  | cons x shards => exact ⟨x, rfl, h.2 x List.mem_cons_self, rfl⟩

theorem repetition_corrects (p : Nat) : repetition.Corrects 1 p where
  exists_new := ⟨p, rfl⟩
  systematic := by
    intro c shards size hc _ hs
    obtain rfl := repetition_new hc
    obtain ⟨x, htake, hx, henc⟩ := repetition_encode hs
    refine ⟨replicate c x, by rw [htake, henc]; rfl, length_replicate, fun y hy => ?_⟩
    rw [List.eq_of_mem_replicate hy]
    exact hx
  reconstructs := by
    intro c shards size word s hc _ hs hw hsub hcard
    obtain rfl := repetition_new hc
    obtain ⟨x, _, _, henc⟩ := repetition_encode hs
    rw [henc, ← List.replicate_succ] at hw
    cases hw
    obtain ⟨i, hi⟩ := Finset.card_pos.mp hcard
    have hlt := Finset.mem_range.mp (hsub hi)
    -- Whatever has arrived is the one shard.
    have hall : ∀ y ∈ (mask (replicate (c + 1) x) s).filterMap id, y = x := by
      intro y hy
      obtain ⟨o, ho, hoy⟩ := List.mem_filterMap.mp hy
      obtain ⟨j, hj⟩ := List.mem_iff_getElem?.mp ho
      rw [getElem?_mask, List.getElem?_replicate, Option.map_eq_some_iff] at hj
      obtain ⟨z, hz, hzo⟩ := hj
      have hzx : z = x := by
        split at hz
        · exact (Option.some.inj hz).symm
        cases hz
      subst hzo hzx
      split at hoy
      · exact (Option.some.inj hoy).symm
      cases hoy
    have hsome : some x ∈ mask (replicate (c + 1) x) s := by
      refine List.mem_iff_getElem?.mpr ⟨i, ?_⟩
      rw [getElem?_mask, List.getElem?_replicate, if_pos (by omega), Option.map_some, if_pos hi]
    have hmem : x ∈ (mask (replicate (c + 1) x) s).filterMap id := List.mem_filterMap.mpr ⟨some x, hsome, rfl⟩
    show ((mask (replicate (c + 1) x) s).filterMap id).head?.map _ = _
    generalize (mask (replicate (c + 1) x) s).filterMap id = known at hall hmem
    cases known with
    | nil => cases hmem
    | cons y known =>
      rw [hall y List.mem_cons_self, List.head?_cons, Option.map_some, List.map_replicate, List.replicate_succ]

/-- The second parity shard alone brings the packet back. -/
theorem parity_shard_recovers : ∃ (groups : List Group) (h : 0 < groups.length),
    (trace (encoderStep repetition) (.withFlush 5 1 2 8 2 1) [.pushOutput [1] none 0]).filterMap groupFrames =
    groups.map (·.frames 8) ∧ returned 8 groups.get [⟨⟨0, h⟩, 2, 0, .asStored⟩] repetition 0 0 = [[1]] := by
  have hrs : ∀ d p, 0 < d → d ≤ (1 : UInt8).toNat → 0 < p → p ≤ (2 : UInt8).toNat → d + p ≤ 64 →
      repetition.Corrects d p := by
    intro d p hd hd' _ _ _
    obtain rfl : d = 1 := Nat.le_antisymm hd' hd
    exact repetition_corrects p
  have hops : ∀ op ∈ [EncoderOp.pushOutput [1] none 0], op.keepsRatio := by
    intro op hop
    rw [mem_singleton.mp hop]
    exact trivial
  obtain ⟨groups, hframes, hpackets, _, hrec⟩ :=
    fec_recovers repetition 5 1 2 (show 2 < 8 by decide) (by decide) hrs 2 1 [.pushOutput [1] none 0] hops
  have hstored : groups.map (·.packets) = [[[1]]] := hpackets.trans (by decide)
  have hsizes : groups.map (fun g => (g.frames 8).length) = [3] := by
    have h := congrArg (List.map List.length) hframes
    rw [map_map] at h
    exact h.symm.trans (by decide)
  obtain ⟨g, rfl⟩ : ∃ g, groups = [g] := by
    have h := congrArg List.length hstored
    rw [length_map] at h
    exact List.length_eq_one_iff.mp h
  have hpkts : g.packets = [[1]] := (List.cons.inj hstored).1
  have hsize : (g.frames 8).length = 3 := (List.cons.inj hsizes).1
  refine ⟨[g], Nat.one_pos, hframes, ?_⟩
  have hone : ∀ a b : Fin [g].length, a = b := by
    intro a b
    have ha : a.val < 1 := a.isLt
    have hb : b.val < 1 := b.isLt
    exact Fin.ext (by omega)
  have hidx : ∀ x ∈ [Shipment.mk (⟨0, Nat.one_pos⟩ : Fin [g].length) 2 0 .asStored],
      x.idx < (([g].get x.group).frames 8).length := by
    intro x hx
    rw [mem_singleton.mp hx]
    show 2 < (g.frames 8).length
    rw [hsize]
    decide
  have hlive : Unexpired repetition 8 [g].get [⟨⟨0, Nat.one_pos⟩, 2, 0, .asStored⟩] 0 := by
    intro n x hx id q hq
    cases n with
    | zero => cases hq
    | succ n => cases hx
  have hr :=
    hrec 0 [⟨⟨0, Nat.one_pos⟩, 2, 0, .asStored⟩] hidx ((List.toFinset_card_le _).trans (show 1 ≤ 128 by decide))
    (fun a _ b _ _ => hone a b) hlive ⟨0, Nat.one_pos⟩
  have hc : Complete [g].get [⟨⟨0, Nat.one_pos⟩, 2, 0, .asStored⟩] ⟨0, Nat.one_pos⟩ := by
    show g.packets.length ≤ 1
    rw [hpkts]
    decide
  obtain ⟨n, x, hx, _, _, _, hret, _⟩ := hr.whole hc
  cases n with
  | zero => exact hret.trans hpkts
  | succ n => cases hx

/-! ### Group numbers come round

After 2^32 - 1 groups the ids start again, and a shard of the new group looks
like a late one of the old. -/

structure Single (e : FecEncoder Nat) : Prop where
  stocked : Stocked repetition e
  empty : e.shardBuf = []
  salt : e.groupSalt = 5
  dataShards : e.dataShards = 1
  parityShards : e.parityShards = 1
  size : e.shardPayloadSize = 8

structure Single.Ships (seq : UInt32) (b : UInt8) (g : Group) : Prop where
  id : g.id = 5 ^^^ seq
  packets : g.packets = [[b]]
  parity : g.parity.length = 1
  coded : g.Coded 8 repetition

theorem Single.push (h : Single e) (b : UInt8) : ∃ g, Single.Ships e.groupSeq b g ∧
    (e.pushOutput repetition [b] none 0).2 = .encoded (g.frames 8) ∧ Single (e.pushOutput repetition [b] none 0).1 ∧
    (e.pushOutput repetition [b] none 0).1.groupSeq = max (e.groupSeq + 1) 1 := by
  have hfit : [b].length + 2 ≤ e.shardPayloadSize := by rw [h.size]; show 3 ≤ 8; decide
  obtain ⟨hs, horig, hsetup, hseq, hlen⟩ := h.stocked.buffer hfit 0
  rw [h.empty, List.length_nil] at hlen
  have hd : (e.buffer [b] 0).dataShards = 1 := hsetup.dataShards.trans h.dataShards
  have hp : (e.buffer [b] 0).parityShards = 1 := hsetup.parityShards.trans h.parityShards
  obtain ⟨g, hid, hpkts, hparity, hcoded, hframes, hempty, hstock, hsetup', hseq'⟩ :=
    encodeAndReset_spec hs hlen Nat.one_pos Nat.one_pos
      (show 1 + 1 ≤ 64 by decide) (repetition_corrects 1).toEncodes 0
  have hsize : (e.buffer [b] 0).shardPayloadSize = 8 := hsetup.size.trans h.size
  have hpush : e.pushOutput repetition [b] none 0 = (((e.buffer [b] 0).encodeAndReset repetition 1 1 0).1,
      .encoded ((e.buffer [b] 0).encodeAndReset repetition 1 1 0).2) := by
    unfold FecEncoder.pushOutput
    rw [h.dataShards, h.parityShards, h.size]
    dsimp only
    rw [hd, hp, hlen]
    rfl
  rw [hsize] at hcoded hframes
  rw [hpush, hframes]
  refine ⟨g, ⟨?_, ?_, hparity, hcoded⟩, rfl, ⟨hstock, List.map_eq_nil_iff.mp hempty, ?_, ?_, ?_, ?_⟩, ?_⟩
  · rw [hid, FecEncoder.currentGroupId, hsetup.salt, hseq, h.salt]
  · rw [hpkts, horig]; unfold originals; rw [h.empty]; rfl
  · exact hsetup'.salt.trans (hsetup.salt.trans h.salt)
  · exact hsetup'.dataShards.trans hd
  · exact hsetup'.parityShards.trans hp
  · exact hsetup'.size.trans hsize
  · rw [hseq', hseq]

def pushAll (bs : List UInt8) : List EncoderOp := bs.map fun b => .pushOutput [b] none 0

def nextSeq (seq : UInt32) : UInt32 := max (seq + 1) 1

theorem Single.run (h : Single e) (bs : List UInt8) : ∃ groups : List Group,
    (trace (encoderStep repetition) e (pushAll bs)).filterMap groupFrames = groups.map (·.frames 8) ∧ ∀ k b,
    bs[k]? = some b → ∃ g, groups[k]? = some g ∧ Single.Ships (nextSeq^[k] e.groupSeq) b g := by
  induction bs generalizing e with
  | nil => exact ⟨[], rfl, fun k b hb => (by cases hb)⟩
  | cons b bs ih =>
    obtain ⟨g, hg, hout, hs, hseq⟩ := h.push b
    obtain ⟨groups, hframes, hget⟩ := ih hs
    refine ⟨g :: groups, ?_, fun k b' hb' => ?_⟩
    · show ((e.pushOutput repetition [b] none 0).2 :: trace (encoderStep repetition)
        (e.pushOutput repetition [b] none 0).1 (pushAll bs)).filterMap groupFrames = _
      rw [hout, map_cons, ← hframes]
      rfl
    cases k with
    | zero => cases hb'; exact ⟨g, rfl, hg⟩
    | succ k =>
      obtain ⟨g', hg', hships⟩ := hget k b' hb'
      rw [hseq] at hships
      exact ⟨g', hg', hships⟩

theorem nextSeq_toNat : (nextSeq seq).toNat = max ((seq.toNat + 1) % 4294967296) 1 := by
  have hadd : (seq + 1).toNat = (seq.toNat + 1) % 4294967296 := UInt32.toNat_add seq 1
  unfold nextSeq
  rw [← hadd]
  by_cases hle : seq + 1 ≤ 1
  · have hnat := UInt32.le_iff_toNat_le.mp hle
    rw [show max (seq + 1) 1 = 1 from if_pos hle]
    exact (max_eq_right hnat).symm
  have hnat : ¬ (seq + 1).toNat ≤ 1 := fun hn => hle (UInt32.le_iff_toNat_le.mpr hn)
  rw [show max (seq + 1) 1 = seq + 1 from if_neg hle]
  omega

theorem nextSeq_iterate {k : Nat} (hk : k < 4294967295) : (nextSeq^[k] 1).toNat = k + 1 := by
  induction k with
  | zero => rfl
  | succ k ih =>
    rw [Function.iterate_succ_apply', nextSeq_toNat, ih (by omega)]
    omega

theorem nextSeq_round (hn : n + 1 = 4294967295) : nextSeq^[n + 1] 1 = 1 := by
  refine UInt32.toNat_inj.mp ?_
  rw [Function.iterate_succ_apply', nextSeq_toNat, nextSeq_iterate (by omega), hn]
  rfl

theorem Single.Ships.head (h : Single.Ships seq b g) :
    (g.frames 8).headD [] = buildFecPacket (5 ^^^ seq) 0 1 1 (shardOf 8 [b]) := by
  unfold Group.frames Group.word Group.data Group.frame
  rw [h.packets, h.parity, h.id, map_cons, List.cons_append, List.mapIdx_cons]
  rfl

theorem Single.Ships.storedPackets (h : Single.Ships seq b g) : storedPackets (g.frames 8) = [[b]] :=
  (h.coded.storedPackets (by decide)).trans h.packets

def twoShards (first last : List Bytes) : List Delivery :=
  [⟨first.headD [], 0, .asStored⟩, ⟨last.headD [], 0, .asStored⟩]

theorem round_lost (hn : n + 1 = 4294967295) {frames : List (List Bytes)}
    (hframes : (trace (encoderStep repetition) (.withFlush 5 1 1 8 2 1)
      (pushAll (replicate (n + 1) 1 ++ [2]))).filterMap groupFrames = frames) :
    ∃ first last, frames[0]? = some first ∧ frames[n + 1]? = some last ∧
      storedPackets first = [[1]] ∧ storedPackets last = [[2]] ∧
      (trace (decoderStep repetition) (.new 0) (twoShards first last)).map (·.recovered) = [[[1]], []] := by
  have hsingle : Single (.withFlush 5 1 1 8 2 1) :=
    ⟨⟨fun _ hx => (by cases hx), fun _ hc => (by cases hc)⟩, rfl, rfl, rfl, rfl, rfl⟩
  obtain ⟨groups, hgroups, hget⟩ := hsingle.run (replicate (n + 1) 1 ++ [2])
  obtain ⟨g, hg, hships⟩ := hget 0 1 rfl
  have hlast : (replicate (n + 1) 1 ++ [(2 : UInt8)])[n + 1]? = some 2 := by
    rw [List.getElem?_append_right (by rw [length_replicate]), length_replicate, Nat.sub_self]
    rfl
  obtain ⟨g', hg', hships'⟩ := hget (n + 1) 2 hlast
  rw [show (FecEncoder.withFlush 5 1 1 8 2 1 : FecEncoder Nat).groupSeq = 1 from rfl, nextSeq_round hn] at hships'
  subst hframes
  rw [hgroups]
  refine ⟨g.frames 8, g'.frames 8, by rw [getElem?_map, hg]; rfl, by rw [getElem?_map, hg']; rfl,
    hships.storedPackets, hships'.storedPackets, ?_⟩
  unfold twoShards
  rw [hships.head, hships'.head]
  decide

/-- The packet of the group that reuses the first one's id is not returned, although the only shard it
needs has been delivered. -/
theorem reused_id_loses_packet : (∀ p, repetition.Corrects 1 p) ∧ ∃ first last,
    ((trace (encoderStep repetition) (.withFlush 5 1 1 8 2 1)
      (pushAll (replicate 4294967295 1 ++ [2]))).filterMap groupFrames)[0]? = some first ∧
    ((trace (encoderStep repetition) (.withFlush 5 1 1 8 2 1)
      (pushAll (replicate 4294967295 1 ++ [2]))).filterMap groupFrames)[4294967295]? = some last ∧
    storedPackets first = [[1]] ∧ storedPackets last = [[2]] ∧
    (trace (decoderStep repetition) (.new 0) (twoShards first last)).map (·.recovered) = [[[1]], []] :=
  ⟨repetition_corrects, round_lost (n := 4294967294) rfl rfl⟩

end ConnectUnit.Fec
