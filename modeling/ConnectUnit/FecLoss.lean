import ConnectUnit.FecRecovery

/-!
# What the decoder reports as lost

A call returns one number, the shards still missing from the groups that went with it.
-/

open Machine (Each run trace)
open Option (filter_some isSome)

namespace ConnectUnit.Fec

variable {g : PartialGroup} {raw : Bytes} {now : Instant} {seen : Finset Nat}
variable {groupId : UInt32} {order : IterOrder} {shardsMissing : Nat}

/-! ## Reports by group -/

def PartialGroup.add (g : PartialGroup) (shardIdx : Nat) (payload : Bytes) : PartialGroup :=
  { g with received := g.received.set shardIdx (some payload), receivedCount := min (g.receivedCount + 1) 255 }

def ShardHeader.blank (h : ShardHeader) (now : Instant) : PartialGroup :=
  ⟨h.dataShards, h.parityShards, h.shardSize, List.replicate h.total none, 0, now⟩

namespace FecDecoder

variable {γ : Type} (rs : Codec γ UInt8) (dec : FecDecoder γ)

def evictExpired (now : Instant) : FecDecoder γ × Nat :=
  let r := dec.evictAt now
  ({ r.1 with lastEvict := now }, r.2)

def evictReports (now : Instant) : List (UInt32 × Nat) :=
  (dec.groups.entries.filter fun e => dec.groupTtl ≤ now - e.2.createdAt).map fun e => (e.1, groupShardsMissing e.2)

def oldestReports (order : IterOrder) : List (UInt32 × Nat) :=
  match dec.oldestGroup order with
  | some id => [(id, (dec.dropGroup id).2)]
  | none => []

def settleReports (groupId : UInt32) (g : PartialGroup) : List (UInt32 × Nat) :=
  let dec := { dec with groups := dec.groups.insert groupId g }
  let dataCount := ((g.received.take g.dataShards.toNat).filter isSome).length
  if dataCount = g.dataShards.toNat then []
  else if g.dataShards.toNat ≤ g.receivedCount then [(groupId, (dec.reconstructAndExtract rs groupId).2.2)]
  else []

def makeRoom (groupId : UInt32) (order : IterOrder) : FecDecoder γ × Nat :=
  if (dec.groups.lookup groupId).isNone ∧ dec.maxGroups ≤ HashMap.size dec.groups then dec.evictOldestGroup order
  else (dec, 0)

def roomReports (groupId : UInt32) (order : IterOrder) : List (UInt32 × Nat) :=
  if (dec.groups.lookup groupId).isNone ∧ dec.maxGroups ≤ HashMap.size dec.groups then dec.oldestReports order else []

def acceptReports (h : ShardHeader) (now : Instant) (order : IterOrder) : List (UInt32 × Nat) :=
  let early := dec.roomReports h.groupId order
  let dec := (dec.makeRoom h.groupId order).1
  let g := (dec.groups.lookup h.groupId).getD (h.blank now)
  if g.dataShards ≠ h.dataShards ∨ g.parityShards ≠ h.parityShards ∨ g.shardSize ≠ h.shardSize ∨
      g.received.length ≠ h.total then
    early ++ [(h.groupId, (dec.dropGroup h.groupId).2)]
  else if (g.received[h.shardIdx]?).any isSome then early
  else early ++ dec.settleReports rs h.groupId (g.add h.shardIdx (h.shardData.take h.shardSize))

def swept (now : Instant) : FecDecoder γ :=
  if fecDecoderEvictInterval ≤ now - dec.lastEvict then (dec.evictExpired now).1 else dec

def sweepReports (now : Instant) : List (UInt32 × Nat) :=
  if fecDecoderEvictInterval ≤ now - dec.lastEvict then dec.evictReports now else []

def pushReports (raw : Bytes) (now : Instant) (order : IterOrder) : List (UInt32 × Nat) :=
  match parseShard raw with
  | none => dec.sweepReports now
  | some h =>
    if h.groupId ∈ (dec.swept now).completedGroups then dec.sweepReports now
    else if h.Malformed then dec.sweepReports now ++ [(h.groupId, ((dec.swept now).dropGroup h.groupId).2)]
    else dec.sweepReports now ++ (dec.swept now).acceptReports rs h now order

def sumOf (reports : List (UInt32 × Nat)) : Nat := (reports.map (·.2)).sum

@[simp] theorem sumOf_append {l l' : List (UInt32 × Nat)} : sumOf (l ++ l') = sumOf l + sumOf l' := by
  unfold sumOf
  rw [List.map_append, List.sum_append]

@[simp] theorem sumOf_singleton {id : UInt32} {n : Nat} : sumOf [(id, n)] = n := Nat.add_zero n

theorem evictReports_sum : sumOf (dec.evictReports now) = (dec.evictAt now).2 := by
  unfold sumOf evictReports evictAt
  rw [List.map_map]
  rfl

theorem roomReports_sum : sumOf (dec.roomReports groupId order) = (dec.makeRoom groupId order).2 := by
  unfold roomReports makeRoom
  split
  · unfold oldestReports evictOldestGroup
    cases dec.oldestGroup order with
    | none => rfl
    | some id => exact sumOf_singleton
  · rfl

theorem settleReports_sum : shardsMissing + sumOf (dec.settleReports rs groupId g) =
      (dec.settleGroup rs groupId g shardsMissing).2.shardsMissing := by
  unfold settleReports settleGroup
  dsimp only
  split
  · rfl
  split
  · rw [sumOf_singleton]; rfl
  rfl

theorem acceptShard_eq (h : ShardHeader) (now : Instant) (order : IterOrder) (shardsMissing : Nat) :
    dec.acceptShard rs h now order shardsMissing =
      let missing := shardsMissing + sumOf (dec.roomReports h.groupId order)
      let dec := (dec.makeRoom h.groupId order).1
      let g := (dec.groups.lookup h.groupId).getD (h.blank now)
      if g.dataShards ≠ h.dataShards ∨ g.parityShards ≠ h.parityShards ∨ g.shardSize ≠ h.shardSize ∨
          g.received.length ≠ h.total then
        ((dec.dropGroup h.groupId).1, .invalidWithMissing (missing + (dec.dropGroup h.groupId).2))
      else if (g.received[h.shardIdx]?).any isSome then (dec, .ok [] 0 missing)
      else dec.settleGroup rs h.groupId (g.add h.shardIdx (h.shardData.take h.shardSize)) missing := by
  rw [roomReports_sum]
  rfl

theorem acceptReports_sum {h : ShardHeader} : shardsMissing + sumOf (dec.acceptReports rs h now order) =
      (dec.acceptShard rs h now order shardsMissing).2.shardsMissing := by
  rw [acceptShard_eq]
  unfold acceptReports
  dsimp only
  split
  · rw [sumOf_append, ← Nat.add_assoc, sumOf_singleton]
    rfl
  split
  · rfl
  rw [sumOf_append, ← Nat.add_assoc]
  exact settleReports_sum rs _

theorem pushShard_eq : dec.pushShard rs raw now order = match parseShard raw with
      | none => (dec.swept now, .invalidWithMissing (sumOf (dec.sweepReports now)))
      | some h =>
        if h.groupId ∈ (dec.swept now).completedGroups then (dec.swept now, .ok [] 0 (sumOf (dec.sweepReports now)))
        else if h.Malformed then
          (((dec.swept now).dropGroup h.groupId).1,
            .invalidWithMissing (sumOf (dec.sweepReports now) + ((dec.swept now).dropGroup h.groupId).2))
        else (dec.swept now).acceptShard rs h now order (sumOf (dec.sweepReports now)) := by
  have hsweep : (if fecDecoderEvictInterval ≤ now - dec.lastEvict then
      ({ (dec.evictAt now).1 with lastEvict := now }, (dec.evictAt now).2) else (dec, 0)) =
        (dec.swept now, sumOf (dec.sweepReports now)) := by
    unfold swept sweepReports evictExpired
    split
    · rw [evictReports_sum]
    rfl
  unfold pushShard
  cases parseShard raw with
  | none => simp only [hsweep]
  | some h => simp only [hsweep]

theorem pushReports_sum :
    sumOf (dec.pushReports rs raw now order) = (dec.pushShard rs raw now order).2.shardsMissing := by
  rw [pushShard_eq]
  unfold pushReports
  cases parseShard raw with
  | none => rfl
  | some h =>
    dsimp only
    split
    · rfl
    split
    · rw [sumOf_append, sumOf_singleton]
      rfl
    rw [sumOf_append]
    exact acceptReports_sum rs _

end FecDecoder

/-! ## What a call does to a group it is not about -/

def reportedFor (id : UInt32) (reports : List (UInt32 × Nat)) : Nat := FecDecoder.sumOf (reports.filter (·.1 = id))

section
variable {id id' : UInt32} {n m : Nat}

theorem reportedFor_append (l l' : List (UInt32 × Nat)) :
    reportedFor id (l ++ l') = reportedFor id l + reportedFor id l' := by
  unfold reportedFor
  rw [List.filter_append, FecDecoder.sumOf_append]

theorem reportedFor_singleton : reportedFor id [(id', n)] = if id' = id then n else 0 := by
  unfold reportedFor
  by_cases h : id' = id
  · rw [if_pos h, List.filter_cons_of_pos (by simpa using h)]
    exact FecDecoder.sumOf_singleton
  rw [if_neg h, List.filter_cons_of_neg (by simpa using h)]
  rfl

end

section
variable {γ : Type} {rs : Codec γ UInt8} {dec dec' dec'' : FecDecoder γ} {id id' : UInt32} {n m : Nat}

structure Sheds (id : UInt32) (dec : FecDecoder γ) (n : Nat) (dec' : FecDecoder γ) : Prop where
  completed : id ∈ dec'.completedGroups → id ∈ dec.completedGroups
  group : dec'.groups.lookup id = dec.groups.lookup id ∧ n = 0 ∨
    ∃ g, dec.groups.lookup id = some g ∧ dec'.groups.lookup id = none ∧ n = groupShardsMissing g

namespace Sheds

theorem of_same (hc : id ∈ dec'.completedGroups → id ∈ dec.completedGroups)
    (hg : dec'.groups.lookup id = dec.groups.lookup id) : Sheds id dec 0 dec' := ⟨hc, .inl ⟨hg, rfl⟩⟩

theorem refl (dec : FecDecoder γ) : Sheds id dec 0 dec := of_same (fun h => h) rfl

theorem trans (h : Sheds id dec n dec') (h' : Sheds id dec' m dec'') : Sheds id dec (n + m) dec'' := by
  refine ⟨fun hc => h.completed (h'.completed hc), ?_⟩
  rcases h.group with ⟨hsame, rfl⟩ | ⟨g, hg, hnone, rfl⟩
  · rw [Nat.zero_add]
    rcases h'.group with ⟨hsame', rfl⟩ | ⟨g, hg, hnone, rfl⟩
    · exact .inl ⟨hsame'.trans hsame, rfl⟩
    exact .inr ⟨g, hsame.symm.trans hg, hnone, rfl⟩
  rcases h'.group with ⟨hsame', rfl⟩ | ⟨g', hg', _, _⟩
  · exact .inr ⟨g, hg, hsame'.trans hnone, rfl⟩
  rw [hnone] at hg'; cases hg'

theorem dropGroup (dec : FecDecoder γ) (id id' : UInt32) :
    Sheds id dec (reportedFor id [(id', (dec.dropGroup id').2)]) (dec.dropGroup id').1 := by
  rw [reportedFor_singleton]
  unfold FecDecoder.dropGroup
  dsimp only
  by_cases h : id' = id
  · subst h
    rw [if_pos rfl]
    refine ⟨fun hc => hc, ?_⟩
    dsimp only
    rw [HashMap.lookup_erase_eq, if_pos rfl]
    cases hl : dec.groups.lookup id' with
    | none => exact .inl ⟨rfl, rfl⟩
    | some g => exact .inr ⟨g, rfl, rfl, rfl⟩
  rw [if_neg h]
  refine of_same (fun hc => hc) ?_
  dsimp only
  rw [HashMap.lookup_erase_eq, if_neg (Ne.symm h)]

theorem evictExpired (dec : FecDecoder γ) (now : Instant) :
    Sheds id dec (reportedFor id (dec.evictReports now)) (dec.evictExpired now).1 := by
  refine ⟨fun hc => hc, ?_⟩
  have hl : (dec.evictExpired now).1.groups.lookup id =
      (dec.groups.lookup id).filter fun g => now - g.createdAt < dec.groupTtl := HashMap.lookup_retain _ _ _
  have hreports : reportedFor id (dec.evictReports now) =
      (((dec.groups.lookup id).filter fun g => dec.groupTtl ≤ now - g.createdAt).map groupShardsMissing).getD 0 := by
    have hkey := HashMap.filter_key_eq dec.groups (List.Perm.refl _) id
    unfold reportedFor FecDecoder.evictReports
    rw [List.filter_map]
    show FecDecoder.sumOf (List.map _ (List.filter (fun e => e.1 = id) (List.filter _ dec.groups.entries))) = _
    rw [List.filter_comm, hkey]
    cases dec.groups.lookup id with
    | none => rfl
    | some g =>
      by_cases hg : dec.groupTtl ≤ now - g.createdAt
      · simp [filter_some, hg]
      simp [filter_some, hg, FecDecoder.sumOf]
  rw [hl, hreports]
  cases dec.groups.lookup id with
  | none => exact .inl ⟨rfl, rfl⟩
  | some g =>
    by_cases hlive : now - g.createdAt < dec.groupTtl
    · left
      simp [filter_some, hlive, not_le.mpr hlive]
    right
    exact ⟨g, rfl, by simp [filter_some, hlive], by simp [filter_some, not_lt.mp hlive]⟩

theorem makeRoom (dec : FecDecoder γ) (id' : UInt32) (order : IterOrder) :
    Sheds id dec (reportedFor id (dec.roomReports id' order)) (dec.makeRoom id' order).1 := by
  unfold FecDecoder.roomReports FecDecoder.makeRoom
  split
  · unfold FecDecoder.oldestReports FecDecoder.evictOldestGroup
    cases dec.oldestGroup order with
    | none => exact refl dec
    | some oldest => exact dropGroup dec id oldest
  · exact refl dec

theorem swept (dec : FecDecoder γ) (now : Instant) :
    Sheds id dec (reportedFor id (dec.sweepReports now)) (dec.swept now) := by
  unfold FecDecoder.sweepReports FecDecoder.swept
  split
  · exact evictExpired dec now
  exact refl dec

end Sheds

/-- A slice keeps its length when it is filled in. -/
def KeepsLength (rs : Codec γ UInt8) : Prop := ∀ c l l', rs.reconstruct c l = some l' → l'.length = l.length

theorem withCodec_groups {d p : Nat} {c : γ} (h : dec.withCodec rs d p = some (c, dec')) :
    dec'.groups = dec.groups ∧ dec'.completedGroups = dec.completedGroups := by
  unfold FecDecoder.withCodec FecDecoder.withCodec.build at h
  have hbuild : ∀ r : Option γ, (r.map fun c => (c, { dec with
      reconstructRs := some c, reconstructRsData := d, reconstructRsParity := p })) = some (c, dec') →
      dec'.groups = dec.groups ∧ dec'.completedGroups = dec.completedGroups := by
    intro r hr
    obtain ⟨c', _, heq⟩ := Option.map_eq_some_iff.mp hr
    cases heq
    exact ⟨rfl, rfl⟩
  split at h
  · split at h
    · cases h; exact ⟨rfl, rfl⟩
    · exact hbuild _ h
  · exact hbuild _ h

theorem reconstructAndExtract_spec (hrs : KeepsLength rs) (hg : dec.groups.lookup id = some g) :
    (dec.reconstructAndExtract rs id).2.2 = groupShardsMissing g ∧ (dec.reconstructAndExtract rs id).1.completedGroups
    = dec.completedGroups ∧ ∀ id', (dec.reconstructAndExtract rs id).1.groups.lookup id' = if id' = id then none else
    dec.groups.lookup id' := by
  unfold FecDecoder.reconstructAndExtract
  rw [hg]
  dsimp only
  cases hw : dec.withCodec rs g.dataShards.toNat g.parityShards.toNat with
  | none =>
    refine ⟨?_, rfl, fun id' => HashMap.lookup_erase_eq _ _ _⟩
    simp [FecDecoder.takeGroupAsMissing, FecDecoder.dropGroup, hg]
  | some r =>
    obtain ⟨c, dec'⟩ := r
    obtain ⟨hgroups, hcompleted⟩ := withCodec_groups hw
    dsimp only
    cases hr : rs.reconstruct c g.received with
    | none =>
      dsimp only
      refine ⟨?_, hcompleted, fun id' => ?_⟩
      · simp [FecDecoder.takeGroupAsMissing, FecDecoder.dropGroup, hgroups, hg]
      rw [← hgroups]
      exact HashMap.lookup_erase_eq _ _ _
    | some received =>
      dsimp only
      rw [extractData_insert]
      refine ⟨?_, hcompleted, fun id' => ?_⟩
      · unfold groupShardsMissing
        rw [hrs c _ _ hr]
      rw [← hgroups]
      exact lookup_erase_insert

theorem mem_noteCompleted (h : id ∈ (dec.noteCompleted id').completedGroups) :
    id ∈ dec.completedGroups ∨ id = id' := by
  unfold FecDecoder.noteCompleted at h
  dsimp only at h
  rw [List.mem_append, List.mem_singleton] at h
  rcases h with h | h
  · left
    split at h
    · exact List.mem_of_mem_tail h
    exact h
  · exact .inr h

theorem settleGroup_cases (hrs : KeepsLength rs) (dec : FecDecoder γ) (id : UInt32) (g : PartialGroup) (m : Nat) :
    (∀ id', id' ≠ id → (dec.settleGroup rs id g m).1.groups.lookup id' = dec.groups.lookup id' ∧
        (id' ∈ (dec.settleGroup rs id g m).1.completedGroups → id' ∈ dec.completedGroups)) ∧
      (if ((g.received.take g.dataShards.toNat).filter isSome).length = g.dataShards.toNat then
        (dec.settleGroup rs id g m).1.groups.lookup id = none ∧ dec.settleReports rs id g = []
      else if g.dataShards.toNat ≤ g.receivedCount then
        (dec.settleGroup rs id g m).1.groups.lookup id = none ∧
          dec.settleReports rs id g = [(id, groupShardsMissing g)]
      else (dec.settleGroup rs id g m).1.groups.lookup id = some g ∧ dec.settleReports rs id g = [] ∧
        (dec.settleGroup rs id g m).1.completedGroups = dec.completedGroups) := by
  have hinsert : { dec with groups := dec.groups.insert id g }.groups.lookup id = some g := AList.lookup_insert _
  have hne : ∀ id', id' ≠ id → (dec.groups.insert id g).lookup id' = dec.groups.lookup id' :=
    fun id' h => by rw [HashMap.lookup_insert_eq, if_neg h]
  unfold FecDecoder.settleGroup FecDecoder.settleReports
  dsimp only
  split
  · rw [extractData_insert]
    refine ⟨fun id' h => ⟨?_, fun hc => (mem_noteCompleted hc).resolve_right h⟩, ?_, rfl⟩
    · exact (lookup_erase_insert).trans (if_neg h)
    exact (lookup_erase_insert).trans (if_pos rfl)
  split
  · obtain ⟨hmissing, hcompleted, hgroups⟩ := reconstructAndExtract_spec hrs hinsert
    rw [hmissing]
    refine ⟨fun id' h => ⟨?_, fun hc => ?_⟩, ?_, rfl⟩
    · exact ((hgroups id').trans (if_neg h)).trans (hne id' h)
    · have hmem := (mem_noteCompleted hc).resolve_right h
      rwa [hcompleted] at hmem
    exact (hgroups id).trans (if_pos rfl)
  · exact ⟨fun id' h => ⟨hne id' h, fun hc => hc⟩, hinsert, rfl, rfl⟩

theorem Sheds.acceptOther (hrs : KeepsLength rs) (dec : FecDecoder γ) {h : ShardHeader} (now : Instant)
    (order : IterOrder) (hne : h.groupId ≠ id) (m : Nat) :
    Sheds id dec (reportedFor id (dec.acceptReports rs h now order)) (dec.acceptShard rs h now order m).1 := by
  have hroom : Sheds id dec (reportedFor id (dec.roomReports h.groupId order)) (dec.makeRoom h.groupId order).1 :=
    .makeRoom dec h.groupId order
  rw [FecDecoder.acceptShard_eq]
  unfold FecDecoder.acceptReports
  dsimp only
  split
  · rw [reportedFor_append]
    exact hroom.trans (.dropGroup _ id _)
  split
  · exact hroom
  rw [reportedFor_append]
  refine hroom.trans ?_
  generalize (((dec.makeRoom h.groupId order).1.groups.lookup h.groupId).getD (h.blank now)).add h.shardIdx
    (h.shardData.take h.shardSize) = g
  obtain ⟨hothers, hown⟩ := settleGroup_cases hrs (dec.makeRoom h.groupId order).1 h.groupId g
    (m + FecDecoder.sumOf (dec.roomReports h.groupId order))
  have hnone : reportedFor id ((dec.makeRoom h.groupId order).1.settleReports rs h.groupId g) = 0 := by
    split at hown
    · rw [hown.2]; rfl
    split at hown
    · rw [hown.2, reportedFor_singleton, if_neg hne]
    rw [hown.2.1]; rfl
  rw [hnone]
  exact .of_same (hothers id (Ne.symm hne)).2 (hothers id (Ne.symm hne)).1

theorem Sheds.pushOther (hrs : KeepsLength rs) (dec : FecDecoder γ) (now : Instant) (order : IterOrder)
    (hother : ∀ h, parseShard raw = some h → h.groupId ≠ id) :
    Sheds id dec (reportedFor id (dec.pushReports rs raw now order)) (dec.pushShard rs raw now order).1 := by
  have hswept : Sheds id dec (reportedFor id (dec.sweepReports now)) (dec.swept now) := .swept dec now
  rw [FecDecoder.pushShard_eq]
  unfold FecDecoder.pushReports
  cases hparse : parseShard raw with
  | none => exact hswept
  | some h =>
    have hne := hother h hparse
    dsimp only
    split
    · exact hswept
    split
    · rw [reportedFor_append]
      exact hswept.trans (.dropGroup _ id _)
    rw [reportedFor_append]
    exact hswept.trans (.acceptOther hrs _ now order hne _)

end

/-! ## One group -/

/-- What the headers of all shards of a group have in common. -/
structure GroupShape where
  id : UInt32
  dataShards : UInt8
  parityShards : UInt8
  shardSize : Nat

namespace GroupShape

variable (s : GroupShape)

def total : Nat := s.dataShards.toNat + s.parityShards.toNat

def DataArrived (seen : Finset Nat) : Prop := ∀ i < s.dataShards.toNat, i ∈ seen

instance (seen : Finset Nat) : Decidable (s.DataArrived seen) :=
  inferInstanceAs (Decidable (∀ i < s.dataShards.toNat, i ∈ seen))

structure Frames (h : ShardHeader) : Prop where
  id : h.groupId = s.id
  data : h.dataShards = s.dataShards
  parity : h.parityShards = s.parityShards
  size : h.shardSize = s.shardSize
  wellFormed : ¬ h.Malformed

instance (h : ShardHeader) : Decidable (s.Frames h) :=
  decidable_of_iff (h.groupId = s.id ∧ h.dataShards = s.dataShards ∧ h.parityShards = s.parityShards ∧
      h.shardSize = s.shardSize ∧ ¬ h.Malformed)
    ⟨fun ⟨h1, h2, h3, h4, h5⟩ => ⟨h1, h2, h3, h4, h5⟩, fun hf => ⟨hf.id, hf.data, hf.parity, hf.size, hf.wellFormed⟩⟩

structure Holds (seen : Finset Nat) (g : PartialGroup) : Prop where
  data : g.dataShards = s.dataShards
  parity : g.parityShards = s.parityShards
  size : g.shardSize = s.shardSize
  slots : g.received.map isSome = (List.range s.total).map fun i => decide (i ∈ seen)
  count : g.receivedCount = seen.card

variable {s} {seen : Finset Nat} {g : PartialGroup} {h : ShardHeader}

theorem DataArrived.card_le (h : s.DataArrived seen) : s.dataShards.toNat ≤ seen.card := by
  have hsub : Finset.range s.dataShards.toNat ⊆ seen := fun i hi => h i (Finset.mem_range.mp hi)
  have hcard := Finset.card_le_card hsub
  rwa [Finset.card_range] at hcard

theorem Frames.total (hf : s.Frames h) : h.total = s.total := by
  unfold ShardHeader.total GroupShape.total
  rw [hf.data, hf.parity]

theorem Frames.idx_lt (hf : s.Frames h) : h.shardIdx < s.total := by
  rw [← hf.total]
  by_contra hlt
  exact hf.wellFormed (.inr (.inr (.inl (not_lt.mp hlt))))

theorem Frames.holds_blank (hf : s.Frames h) : s.Holds ∅ (h.blank now) where
  data := hf.data
  parity := hf.parity
  size := hf.size
  slots := by
    unfold ShardHeader.blank
    rw [List.map_replicate, hf.total]
    simp
  count := rfl

section
variable (hh : s.Holds seen g)
include hh

theorem Holds.length : g.received.length = s.total := by
  have := congrArg List.length hh.slots
  simpa using this

theorem Holds.slot {i : Nat} (hi : i < s.total) : (g.received[i]?).any isSome = decide (i ∈ seen) := by
  have hslot := congrArg (fun l => l[i]?) hh.slots
  simp only [List.getElem?_map, List.getElem?_range hi, Option.map_some] at hslot
  obtain ⟨slot, hget, hsome⟩ := Option.map_eq_some_iff.mp hslot
  rw [hget, ← hsome]
  rfl

theorem Holds.missing : groupShardsMissing g = s.total - seen.card := by
  unfold groupShardsMissing
  rw [hh.length, hh.count]

theorem Holds.add {i : Nat} (hnew : i ∉ seen) (hcard : seen.card < 255) {payload : Bytes} :
    s.Holds (insert i seen) (g.add i payload) where
  data := hh.data
  parity := hh.parity
  size := hh.size
  slots := by
    unfold PartialGroup.add
    dsimp only
    rw [List.map_set, hh.slots]
    refine List.ext_getElem? fun j => ?_
    by_cases hj : i = j
    · subst hj
      by_cases hlt : i < s.total
      · simp [hlt]
      simp [hlt]
    rw [List.getElem?_set_ne hj]
    by_cases hlt : j < s.total
    · simp [hlt, Ne.symm hj]
    simp [hlt]
  count := by
    unfold PartialGroup.add
    dsimp only
    rw [hh.count, Finset.card_insert_of_notMem hnew]
    omega

theorem Holds.dataCount_eq_iff :
    ((g.received.take g.dataShards.toNat).filter isSome).length = g.dataShards.toNat ↔ s.DataArrived seen := by
  have hle : s.dataShards.toNat ≤ s.total := Nat.le_add_right _ _
  have hslots : (g.received.take s.dataShards.toNat).map isSome =
      (List.range s.dataShards.toNat).map fun i => decide (i ∈ seen) := by
    rw [List.map_take, hh.slots, ← List.map_take, List.take_range, min_eq_left hle]
  have hcount : ((g.received.take s.dataShards.toNat).filter isSome).length =
      (List.range s.dataShards.toNat).countP fun i => decide (i ∈ seen) := by
    have hmap := congrArg (List.countP fun b => b) hslots
    rw [List.countP_map, List.countP_map] at hmap
    rw [← List.countP_eq_length_filter]
    exact hmap
  have hall := List.countP_eq_length (p := fun i => decide (i ∈ seen)) (l := List.range s.dataShards.toNat)
  rw [List.length_range] at hall
  rw [hh.data, hcount, hall]
  unfold DataArrived
  simp

end

end GroupShape

/-! ## Runs -/

inductive DecoderOp where
  | pushShard (a : Delivery)
  | evictExpired (now : Instant)

structure Watch (γ : Type) where
  dec : FecDecoder γ
  seen : Finset Nat

namespace Watch

variable {γ : Type} (rs : Codec γ UInt8) (s : GroupShape)
variable {dec : FecDecoder γ}

def arrival (raw : Bytes) : Finset Nat :=
  match parseShard raw with
  | some h => if h.groupId = s.id then {h.shardIdx} else ∅
  | none => ∅

def step (w : Watch γ) : DecoderOp → Watch γ × List Nat
  | .pushShard a =>
    (⟨(w.dec.pushShard rs a.raw a.now a.order).1, arrival s a.raw ∪ w.seen⟩,
      [reportedFor s.id (w.dec.pushReports rs a.raw a.now a.order)])
  | .evictExpired now => (⟨(w.dec.evictExpired now).1, w.seen⟩, [reportedFor s.id (w.dec.evictReports now)])

/-- Under the number of the group only its shards are delivered, each at most once, and none when its time
to live has run out. -/
def Genuine (w : Watch γ) : DecoderOp → Prop
  | .pushShard a => ∀ h ∈ parseShard a.raw, h.groupId = s.id → s.Frames h ∧ h.shardIdx ∉ w.seen ∧
      ∀ g ∈ w.dec.groups.lookup s.id, a.now - g.createdAt < w.dec.groupTtl
  | .evictExpired _ => True

/-- A shard of the group comes first, or finds its group open, or comes after all data shards to a decoder
that still knows the group as completed. -/
def Timely (w : Watch γ) : DecoderOp → Prop
  | .pushShard a => ∀ h ∈ parseShard a.raw, h.groupId = s.id → w.seen = ∅ ∨
      (w.dec.groups.lookup s.id).isSome ∨ s.id ∈ w.dec.completedGroups ∧ s.DataArrived w.seen
  | .evictExpired _ => True

instance (w : Watch γ) (op : DecoderOp) : Decidable (Genuine s w op) :=
  match op with
  | .pushShard a => inferInstanceAs (Decidable (∀ h ∈ parseShard a.raw, h.groupId = s.id → s.Frames h ∧ _ ∧
      ∀ g ∈ w.dec.groups.lookup s.id, a.now - g.createdAt < w.dec.groupTtl))
  | .evictExpired _ => .isTrue trivial

instance (w : Watch γ) (op : DecoderOp) : Decidable (Timely s w op) :=
  match op with
  | .pushShard a => inferInstanceAs (Decidable (∀ h ∈ parseShard a.raw, h.groupId = s.id → _ ∨ _ ∨ _ ∧ _))
  | .evictExpired _ => .isTrue trivial

inductive Account (w : Watch γ) : Nat → Prop
  | unseen : w.seen = ∅ → w.dec.groups.lookup s.id = none → s.id ∉ w.dec.completedGroups → Account w 0
  | held {g : PartialGroup} : w.seen ≠ ∅ → w.dec.groups.lookup s.id = some g → s.Holds w.seen g →
      s.id ∉ w.dec.completedGroups → w.seen.card < s.dataShards.toNat → Account w 0
  | lost : w.seen ≠ ∅ → w.dec.groups.lookup s.id = none → ¬ s.DataArrived w.seen → Account w (s.total - w.seen.card)
  | extracted : w.seen ≠ ∅ → w.dec.groups.lookup s.id = none → s.DataArrived w.seen → Account w 0

variable {rs s} {w w' : Watch γ} {n m : Nat}

theorem Account.sheds (h : Account s w n) (hseen : w'.seen = w.seen) (hs : Sheds s.id w.dec m w'.dec) :
    Account s w' (n + m) := by
  have hnot : s.id ∉ w.dec.completedGroups → s.id ∉ w'.dec.completedGroups := fun hn hc => hn (hs.completed hc)
  cases h with
  | unseen he hl hc =>
    rcases hs.group with ⟨hsame, rfl⟩ | ⟨g, hg, _, _⟩
    · exact .unseen (hseen.trans he) (hsame.trans hl) (hnot hc)
    rw [hl] at hg; cases hg
  | held hne hl hh hc hcard =>
    rcases hs.group with ⟨hsame, rfl⟩ | ⟨g, hg, hgone, rfl⟩
    · exact .held (hseen ▸ hne) (hsame.trans hl) (hseen ▸ hh) (hnot hc) (hseen ▸ hcard)
    rw [hl] at hg
    cases hg
    rw [Nat.zero_add, hh.missing, ← hseen]
    exact .lost (hseen ▸ hne) hgone fun hd =>
      absurd (hseen ▸ hcard) (not_lt.mpr (GroupShape.DataArrived.card_le hd))
  | lost hne hl hd =>
    rcases hs.group with ⟨hsame, rfl⟩ | ⟨g, hg, _, _⟩
    · rw [← hseen]
      exact .lost (hseen ▸ hne) (hsame.trans hl) (hseen ▸ hd)
    rw [hl] at hg; cases hg
  | extracted hne hl hd =>
    rcases hs.group with ⟨hsame, rfl⟩ | ⟨g, hg, _, _⟩
    · exact .extracted (hseen ▸ hne) (hsame.trans hl) (hseen ▸ hd)
    rw [hl] at hg; cases hg

theorem swept_completed (dec : FecDecoder γ) (now : Instant) :
    (dec.swept now).completedGroups = dec.completedGroups := by
  unfold FecDecoder.swept
  split
  · rfl
  rfl

theorem swept_of_live {id : UInt32} (hlive : ∀ g, dec.groups.lookup id = some g → now - g.createdAt < dec.groupTtl) :
    (dec.swept now).groups.lookup id = dec.groups.lookup id ∧ reportedFor id (dec.sweepReports now) = 0 := by
  have hsheds : Sheds id dec (reportedFor id (dec.sweepReports now)) (dec.swept now) := .swept dec now
  rcases hsheds.group with h | ⟨g, hg, hgone, _⟩
  · exact h
  exfalso
  unfold FecDecoder.swept at hgone
  split at hgone
  · have hl : (dec.evictExpired now).1.groups.lookup id =
        (dec.groups.lookup id).filter fun g => now - g.createdAt < dec.groupTtl := HashMap.lookup_retain _ _ _
    rw [hl, hg] at hgone
    simp [filter_some, hlive g hg] at hgone
  · rw [hg] at hgone; cases hgone

theorem Account.settle (hrs : KeepsLength rs)
    (hh : s.Holds seen g) (hcompleted : s.id ∉ dec.completedGroups) (hne : seen ≠ ∅) :
    Account s ⟨(dec.settleGroup rs s.id g m).1, seen⟩ (reportedFor s.id (dec.settleReports rs s.id g)) := by
  have hown := (settleGroup_cases hrs dec s.id g m).2
  split at hown
  · rename_i hdata
    rw [hown.2]
    exact .extracted hne hown.1 (hh.dataCount_eq_iff.mp hdata)
  rename_i hdata
  split at hown
  · rw [hown.2, reportedFor_singleton, if_pos rfl, hh.missing]
    exact .lost hne hown.1 fun hd => hdata (hh.dataCount_eq_iff.mpr hd)
  rename_i hfew
  obtain ⟨hl, hreports, hsame⟩ := hown
  rw [hreports]
  refine .held hne hl hh (by rw [hsame]; exact hcompleted) ?_
  rw [hh.data, hh.count] at hfew
  exact not_le.mp hfew

theorem Account.accept (hrs : KeepsLength rs) {h : ShardHeader} (hf : s.Frames h) (hnew : h.shardIdx ∉ seen)
    (hcompleted : s.id ∉ dec.completedGroups) (hcard : seen.card < 255)
    (hgroup : (∃ g, dec.groups.lookup s.id = some g ∧ s.Holds seen g) ∨ dec.groups.lookup s.id = none ∧ seen = ∅)
    (order : IterOrder) (m : Nat) : Account s ⟨(dec.acceptShard rs h now order m).1, insert h.shardIdx seen⟩
    (reportedFor s.id (dec.acceptReports rs h now order)) := by
  have hroom : Sheds s.id dec (reportedFor s.id (dec.roomReports s.id order)) (dec.makeRoom s.id order).1 :=
    .makeRoom dec s.id order
  -- Room is made only for a group that is not open, so never by dropping this one.
  obtain ⟨hsame, hquiet⟩ : (dec.makeRoom s.id order).1.groups.lookup s.id = dec.groups.lookup s.id ∧
      reportedFor s.id (dec.roomReports s.id order) = 0 := by
    rcases hroom.group with hsame | ⟨g, hg, hgone, _⟩
    · exact hsame
    exfalso
    unfold FecDecoder.makeRoom at hgone
    rw [hg] at hgone
    simp only [Option.isNone_some, Bool.false_eq_true, false_and, if_false] at hgone
    rw [hg] at hgone
    cases hgone
  have hnot : s.id ∉ (dec.makeRoom s.id order).1.completedGroups := fun hc => hcompleted (hroom.completed hc)
  have hholds : s.Holds seen (((dec.makeRoom s.id order).1.groups.lookup s.id).getD (h.blank now)) := by
    rw [hsame]
    rcases hgroup with ⟨g, hg, hh⟩ | ⟨hg, rfl⟩
    · rw [hg]; exact hh
    rw [hg]; exact hf.holds_blank
  rw [FecDecoder.acceptShard_eq]
  unfold FecDecoder.acceptReports
  dsimp only
  rw [hf.id]
  generalize ((dec.makeRoom s.id order).1.groups.lookup s.id).getD (h.blank now) = g at hholds
  have hmatch : ¬ (g.dataShards ≠ h.dataShards ∨ g.parityShards ≠ h.parityShards ∨ g.shardSize ≠ h.shardSize ∨
      g.received.length ≠ h.total) := by
    rw [hholds.data, hholds.parity, hholds.size, hholds.length, hf.data, hf.parity, hf.size, hf.total]
    simp
  have hfree : ¬ (g.received[h.shardIdx]?).any isSome = true := by
    rw [hholds.slot hf.idx_lt]
    simpa using hnew
  rw [if_neg hmatch, if_neg hfree, if_neg hmatch, if_neg hfree, reportedFor_append, hquiet, Nat.zero_add]
  exact Account.settle hrs (hholds.add hnew hcard) hnot (Finset.insert_ne_empty _ _)

theorem arrival_own {h : ShardHeader} (hp : parseShard raw = some h) (hid : h.groupId = s.id)
    : arrival s raw ∪ seen = insert h.shardIdx seen := by
  unfold arrival
  rw [hp]
  dsimp only
  rw [if_pos hid]
  rfl

theorem arrival_other (hother : ∀ h, parseShard raw = some h → h.groupId ≠ s.id) (seen : Finset Nat) :
    arrival s raw ∪ seen = seen := by
  have hnone : arrival s raw = ∅ := by
    unfold arrival
    split
    · rename_i h hp; exact if_neg (hother h hp)
    rfl
  rw [hnone, Finset.empty_union]

theorem Account.pushOwn (hrs : KeepsLength rs) (h : Account s w n) {a : Delivery} {hd : ShardHeader}
    (hp : parseShard a.raw = some hd) (hid : hd.groupId = s.id) (hgen : Genuine s w (.pushShard a))
    (htime : Timely s w (.pushShard a)) : Account s
    ⟨(w.dec.pushShard rs a.raw a.now a.order).1, insert hd.shardIdx w.seen⟩
    (n + reportedFor s.id (w.dec.pushReports rs a.raw a.now a.order)) := by
  obtain ⟨hf, hnew, hlive⟩ := hgen hd hp hid
  obtain ⟨hsame, hquiet⟩ := swept_of_live hlive
  have hcompleted := swept_completed w.dec a.now
  have haccept : s.id ∉ w.dec.completedGroups → w.seen.card < 255 →
      ((∃ g, w.dec.groups.lookup s.id = some g ∧ s.Holds w.seen g) ∨ w.dec.groups.lookup s.id = none ∧ w.seen = ∅) →
      Account s ⟨(w.dec.pushShard rs a.raw a.now a.order).1, insert hd.shardIdx w.seen⟩
        (reportedFor s.id (w.dec.pushReports rs a.raw a.now a.order)) := by
    intro hc hcard hgroup
    rw [← hsame] at hgroup
    rw [← hcompleted] at hc
    rw [FecDecoder.pushShard_eq]
    unfold FecDecoder.pushReports
    rw [hp]
    dsimp only
    rw [if_neg (by rw [hid]; exact hc), if_neg hf.wellFormed, if_neg (by rw [hid]; exact hc), if_neg hf.wellFormed,
      reportedFor_append, hquiet, Nat.zero_add]
    exact Account.accept hrs hf hnew hc hcard hgroup a.order _
  have hlost :
      w.seen ≠ ∅ → w.dec.groups.lookup s.id = none → s.id ∈ w.dec.completedGroups ∧ s.DataArrived w.seen := by
    intro hne hl
    rcases htime hd hp hid with he | hopen | hc
    · exact absurd he hne
    · rw [hl] at hopen; cases hopen
    exact hc
  cases h with
  | unseen he hl hc =>
    rw [Nat.zero_add]
    exact haccept hc (by rw [he]; decide) (.inr ⟨hl, he⟩)
  | held hne hl hh hc hcard =>
    have hsmall := s.dataShards.toNat_lt
    rw [Nat.zero_add]
    exact haccept hc (by omega) (.inl ⟨_, hl, hh⟩)
  | lost hne hl hdata => exact absurd (hlost hne hl).2 hdata
  | extracted hne hl hdata =>
    have hc : hd.groupId ∈ (w.dec.swept a.now).completedGroups := by rw [hid, hcompleted]; exact (hlost hne hl).1
    rw [FecDecoder.pushShard_eq]
    unfold FecDecoder.pushReports
    rw [hp]
    dsimp only
    rw [if_pos hc, if_pos hc, hquiet]
    exact .extracted (Finset.insert_ne_empty _ _) (hsame.trans hl) fun i hi => Finset.mem_insert_of_mem (hdata i hi)

theorem Account.next (hrs : KeepsLength rs) (h : Account s w n) {op : DecoderOp} (hgen : Genuine s w op)
    (htime : Timely s w op) : Account s (step rs s w op).1 (n + (step rs s w op).2.sum) := by
  cases op with
  | evictExpired now => exact h.sheds rfl (.evictExpired w.dec now)
  | pushShard a =>
    have hother : (∀ hd, parseShard a.raw = some hd → hd.groupId ≠ s.id) →
        Account s (step rs s w (.pushShard a)).1 (n + (step rs s w (.pushShard a)).2.sum) :=
      fun hother => h.sheds (arrival_other hother _) (.pushOther hrs w.dec a.now a.order hother)
    cases hp : parseShard a.raw with
    | none => exact hother fun hd hd' => by rw [hp] at hd'; cases hd'
    | some hd =>
      by_cases hid : hd.groupId = s.id
      · unfold step
        dsimp only
        rw [arrival_own hp hid]
        exact h.pushOwn hrs hp hid hgen htime
      refine hother fun hd' hd'' => ?_
      rw [hp] at hd''
      cases hd''
      exact hid

/-- As long as no shard of the group comes late, no more of its shards are reported missing than are never
delivered. -/
theorem missing_le_undelivered (rs : Codec γ UInt8) (hrs : KeepsLength rs) (s : GroupShape) (start : Instant)
    (ops : List DecoderOp) (hgen : Each (step rs s) ⟨.new start, ∅⟩ ops (Genuine s))
    (htime : Each (step rs s) ⟨.new start, ∅⟩ ops (Timely s)) :
    (trace (step rs s) ⟨.new start, ∅⟩ ops).sum ≤ s.total -
    (run (step rs s) ⟨.new start, ∅⟩ ops).seen.card := by
  have haccount : Account s (run (step rs s) ⟨.new start, ∅⟩ ops) (trace (step rs s) ⟨.new start, ∅⟩ ops).sum := by
    have hboth : Each (step rs s) ⟨.new start, ∅⟩ ops fun w op => Genuine s w op ∧ Timely s w op :=
      fun i op hop => ⟨hgen i op hop, htime i op hop⟩
    refine Machine.trace_invariant (I := fun w log => Account s w log.sum) ?_ ?_ hboth
    · intro w log op hok h
      rw [List.sum_append]
      exact h.next hrs hok.1 hok.2
    · exact .unseen rfl rfl (by intro hc; cases hc)
  generalize (trace (step rs s) ⟨.new start, ∅⟩ ops).sum = total at haccount
  cases haccount with
  | unseen _ _ _ | held _ _ _ _ _ | extracted _ _ _ => exact Nat.zero_le _
  | lost _ _ _ => exact le_refl _

/-! ### A shard that never comes, and one that only comes late -/

def push (idx d p : UInt8) (now : Instant) : DecoderOp :=
  .pushShard ⟨buildFecPacket 7 idx d p [1, 0, 5], now, .asStored⟩

/-- Two data shards and one for parity, of which only the first arrives. -/
def twoOfThree : GroupShape := ⟨7, 2, 1, 3⟩

def oneArrives : List DecoderOp := [push 0 2 1 0, .evictExpired (millis 200)]

theorem one_arrives_two_missing : trace (step blankCodec twoOfThree) ⟨.new 0, ∅⟩ oneArrives = [0, 2] ∧
    (trace (step blankCodec twoOfThree) ⟨.new 0, ∅⟩ oneArrives).sum ≤ 3 -
    (run (step blankCodec twoOfThree) ⟨.new 0, ∅⟩ oneArrives).seen.card := by
  refine ⟨by decide +kernel, ?_⟩
  refine missing_le_undelivered blankCodec (fun c l l' h => ?_) twoOfThree 0 oneArrives (by decide +kernel)
    (by decide +kernel)
  cases h

/-- One data shard and one for parity, which overtakes it. -/
def oneOfTwo : GroupShape := ⟨7, 1, 1, 3⟩

def overtaken : List DecoderOp := [push 1 1 1 0, push 0 1 1 1]

theorem overtaken_shard_reported_missing : Each (step repetition oneOfTwo) ⟨.new 0, ∅⟩ overtaken
    (Genuine oneOfTwo) ∧ (trace (step repetition oneOfTwo) ⟨.new 0, ∅⟩ overtaken).sum = 1 ∧
    (run (step repetition oneOfTwo) ⟨.new 0, ∅⟩ overtaken).seen = {0, 1} ∧ oneOfTwo.total -
    (run (step repetition oneOfTwo) ⟨.new 0, ∅⟩ overtaken).seen.card = 0 := by
  decide +kernel

end Watch

end ConnectUnit.Fec
