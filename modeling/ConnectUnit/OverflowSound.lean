import ConnectUnit.AdvancedTuningSound
import ConnectUnit.Overflow
import ConnectUnit.ReliableSound
import ConnectUnit.RoutingSound

/-!
# Where the arithmetic on round-trip times is safe

With a timeout limit that fits `i32`, hints and samples of at most some days and
a success count whose double fits, no operation on a reachable channel or route
entry leaves its type, and every timeout lies within the limits.
-/

open Machine (Each each_cons run stateAt)
open Option (bind_eq_bind bind_some map_eq_some_iff)

namespace ConnectUnit.Checked

open Reliable

variable {n : Int} {ch : Reliable.ReliableChannel} {now : Instant} {fo : FailoverTuning}
variable {f : RouteEntry → RouteEntry}
variable {dest fromEp : SocketAddr} {seq : UInt32} {rttMs : Int} {cg : CongestionTuning}

theorem fitI32_of_mem (h : -2147483648 ≤ n ∧ n ≤ 2147483647) : fitI32 n = some n := if_pos h

theorem i32_of_mem (h : -2147483648 ≤ n ∧ n ≤ 2147483647) : i32 n = n :=
  Int.bmod_eq_of_le_mul_two (by omega) (by omega)

theorem u32_of_mem (h : 0 ≤ n ∧ n ≤ 2147483647) : u32 n = n.toNat := by
  unfold u32
  rw [Int.emod_eq_of_lt h.1 (by omega)]

/-! ## Timeouts -/

def InLimits (t : ReliableTuning) (rtoMs : Nat) : Prop := t.rtoMinMs ≤ rtoMs ∧ rtoMs ≤ t.rtoMaxMs

section
variable {t : ReliableTuning}

theorem computeRtoMs_eq (ht : t.rtoMaxMs < 2 ^ 31) (srttMs rttvarMs : Int)
    (h : max srttMs srttMinMs + max (4 * max rttvarMs 1) 10 ≤ 2147483647) : Checked.computeRtoMs srttMs rttvarMs t =
    some (Reliable.computeRtoMs srttMs rttvarMs t) ∧ InLimits t (Reliable.computeRtoMs srttMs rttvarMs t) := by
  have hsrtt : 5 ≤ max srttMs srttMinMs := le_max_right _ _
  have hspread : -2147483648 ≤ 4 * max rttvarMs 1 ∧ 4 * max rttvarMs 1 ≤ 2147483647 := by omega
  have hsum : -2147483648 ≤ max srttMs srttMinMs + max (4 * max rttvarMs 1) 10 ∧
      max srttMs srttMinMs + max (4 * max rttvarMs 1) 10 ≤ 2147483647 := by omega
  have hmin : i32 t.rtoMinMs = t.rtoMinMs := i32_of_mem (by have := t.min_le_max; omega)
  have hmax : i32 t.rtoMaxMs = t.rtoMaxMs := i32_of_mem (by omega)
  have hle : (t.rtoMinMs : Int) ≤ t.rtoMaxMs := Int.ofNat_le.mpr t.min_le_max
  have hrto : Reliable.computeRtoMs srttMs rttvarMs t =
      (max (t.rtoMinMs : Int) (min (max srttMs srttMinMs + max (4 * max rttvarMs 1) 10) t.rtoMaxMs)).toNat := by
    unfold Reliable.computeRtoMs
    dsimp only
    rw [i32_of_mem hspread, i32_of_mem hsum, hmin, hmax, u32_of_mem (by omega)]
  constructor
  · unfold Checked.computeRtoMs
    dsimp only
    rw [fitI32_of_mem hspread, bind_eq_bind, bind_some, fitI32_of_mem hsum, bind_some, hmin, hmax,
      Advanced.clamp_of_le _ hle, bind_some, hrto]
    unfold Advanced.clampTo
    rw [u32_of_mem (by omega)]
    rfl
  rw [hrto]
  unfold InLimits
  omega

structure Smooth (srttMs rttvarMs : Int) : Prop where
  srtt_nonneg : 0 ≤ srttMs
  srtt_lt : 8 * srttMs < 2 ^ 31
  rttvar_nonneg : 0 ≤ rttvarMs
  rttvar_lt : 8 * rttvarMs < 2 ^ 31

def Modest (rttHintMs : Option Int) : Prop := ∀ r ∈ rttHintMs, 3 * r < 2 ^ 31

theorem initialRtoForSend_eq (ht : t.rtoMaxMs < 2 ^ 31) {srttMs rttvarMs : Int} (hs : Smooth srttMs rttvarMs)
    {rttHintMs : Option Int} (hh : Modest rttHintMs) : Checked.initialRtoForSend srttMs rttvarMs rttHintMs t = some
    (Reliable.initialRtoForSend srttMs rttvarMs rttHintMs t) ∧ InLimits t
    (Reliable.initialRtoForSend srttMs rttvarMs rttHintMs t) := by
  obtain ⟨hbase, hlimits⟩ := computeRtoMs_eq ht srttMs rttvarMs (by
    have := hs.srtt_lt
    have := hs.rttvar_lt
    unfold srttMinMs
    omega)
  unfold Checked.initialRtoForSend Reliable.initialRtoForSend
  rw [hbase, bind_eq_bind, bind_some]
  cases hr : rttHintMs.filter (0 < ·) with
  | none => exact ⟨rfl, hlimits⟩
  | some r =>
    obtain ⟨hmem, hpos⟩ := Option.filter_eq_some_iff.mp hr
    have hpos : 0 < r := by simpa using hpos
    have hlt := hh r hmem
    obtain ⟨hhinted, hlimits'⟩ := computeRtoMs_eq ht (max r 20) (max (r.tdiv 2) 10) (by
      rw [Int.tdiv_eq_ediv_of_nonneg hpos.le]
      unfold srttMinMs
      omega)
    dsimp only
    rw [hhinted]
    refine ⟨rfl, ?_⟩
    unfold InLimits at *
    omega

theorem backOff_eq (ht : t.rtoMaxMs < 2 ^ 31) {rtoMs : Nat} (h : InLimits t rtoMs) :
    backOff rtoMs t = some (max t.rtoMinMs (min (rtoMs * 2 % 2 ^ 32) t.rtoMaxMs)) := by
  unfold InLimits at h
  have hfit : rtoMs * 2 < 2 ^ 32 := by omega
  unfold backOff fitU32
  rw [if_pos hfit, bind_eq_bind, bind_some, Advanced.clamp_of_le _ t.min_le_max, Nat.mod_eq_of_lt hfit]
  rfl

end

/-! ## Ticks -/

def Ranged (t : ReliableTuning) (ch : Reliable.ReliableChannel) : Prop :=
  ch.tuning = t ∧ ∀ seq p, ch.pending.lookup seq = some p → InLimits t p.rtoMs

section
variable {t : ReliableTuning} {s : Ticked} {now : Instant} {seq : UInt32} {p : Reliable.PendingPacket}

theorem Ranged.insert (h : Ranged t ch) (hp : InLimits t p.rtoMs) :
    Ranged t { ch with pending := ch.pending.insert seq p } := by
  refine ⟨h.1, fun k q hq => ?_⟩
  replace hq : (ch.pending.insert seq p).lookup k = some q := hq
  rw [HashMap.lookup_insert_eq] at hq
  split at hq
  · cases hq
    exact hp
  exact h.2 k q hq

theorem Ranged.erase (h : Ranged t ch) : Ranged t { ch with pending := ch.pending.erase seq } := by
  refine ⟨h.1, fun k q hq => ?_⟩
  replace hq : (ch.pending.erase seq).lookup k = some q := hq
  rw [HashMap.lookup_erase_eq] at hq
  split at hq
  · cases hq
  exact h.2 k q hq

theorem Ranged.fire (h : Ranged t s.ch) : Ranged t (s.fire now seq p).ch := by
  unfold Ticked.fire
  split
  · exact h.erase
  refine Ranged.insert h ?_
  have := t.min_le_max
  unfold InLimits
  rw [h.1]
  dsimp only
  omega

theorem fire_eq (now : Instant) (ht : t.rtoMaxMs < 2 ^ 31) (h : Ranged t s.ch) (hp : s.ch.pending.lookup seq = some p)
    : Checked.fire s now seq p = some (s.fire now seq p) := by
  unfold Checked.fire Ticked.fire
  split
  · rfl
  rw [h.1, backOff_eq ht (h.2 seq p hp)]
  rfl

theorem loop_eq (ht : t.rtoMaxMs < 2 ^ 31) {fuel : Nat} (h : Ranged t s.ch) :
    Checked.loop now fuel s = Ticked.loop now fuel s := by
  induction fuel generalizing s with
  | zero => rfl
  | succ fuel ih =>
    unfold Checked.loop Ticked.loop
    dsimp only
    cases s.ch.popStaleDueHeapTop.dueHeap with
    | nil =>
      dsimp only
      split
      · rfl
      split
      · rfl
      obtain ⟨heap, due, hb⟩ := s.ch.popStaleDueHeapTop.rebuild_eq
      rw [hb]
      exact ih h
    | cons due rest =>
      obtain ⟨at', seq⟩ := due
      dsimp only
      split
      · rfl
      cases hp : s.ch.popStaleDueHeapTop.pending.lookup seq with
      | none => exact ih h
      | some p =>
        dsimp only
        split
        · exact ih h
        have hfire := fire_eq (s := { s with ch := { s.ch.popStaleDueHeapTop with dueHeap := rest } }) now ht h hp
        rw [hfire, bind_some]
        exact ih (Ranged.fire (s := { s with ch := { s.ch.popStaleDueHeapTop with dueHeap := rest } }) h)

theorem tickInto_eq (ht : t.rtoMaxMs < 2 ^ 31) (h : Ranged t ch) (now : Instant) :
    Checked.tickInto ch now = some (ch.tickInto now) := by
  unfold Checked.tickInto Reliable.ReliableChannel.tickInto
  split
  · rfl
  rw [loop_eq ht h, Option.some_get]

end

/-! ## Runs of the channel -/

inductive ChannelOp where
  | op (op : Reliable.ReliableChannel.Op)
  | resetSession

def channelStep (ch : Reliable.ReliableChannel) :
    ChannelOp → Reliable.ReliableChannel × List Reliable.ReliableChannel.Output
  | .op op => ch.step op
  | .resetSession => (ch.resetSession, [])

/-- Hints are modest, the knobs stay, and a packet that was sent once is acknowledged before eight times its
  age in milliseconds leaves the type. -/
def Prompt (ch : Reliable.ReliableChannel) : ChannelOp → Prop
  | .op (.send _ _ _ rttHintMs _) => Modest rttHintMs
  | .op (.onAck seq _ now) => ∀ p, ch.pending.lookup seq = some p → p.retransmitted = false →
      8 * ((now - p.actualSentAt.getD p.enqueuedAt) / 1000000) < 2 ^ 31
  | .op (.applyTuning _) => False
  | _ => True

structure Calm (t : ReliableTuning) (ch : Reliable.ReliableChannel) : Prop where
  ranged : Ranged t ch
  smooth : Smooth ch.srttMs ch.rttvarMs

section
variable {t : ReliableTuning} {ch : Reliable.ReliableChannel}

theorem smooth_default : Smooth 100 50 := by
  constructor <;> decide

theorem calm_new : Calm t (Reliable.ReliableChannel.new.applyTuning t) :=
  ⟨⟨rfl, fun _ _ h => (nomatch h)⟩, smooth_default⟩

theorem Smooth.average {srtt rttvar : Int} (h : Smooth srtt rttvar) {age : Nat} (hage : 8 * age < 2 ^ 31) :
    let rtt := i32 (max age 1 : Nat)
    Smooth (max ((i32 (i32 (7 * srtt) + rtt)).tdiv 8) srttMinMs)
      (max ((i32 (i32 (3 * rttvar) + i32 (i32 (srtt - rtt)).natAbs)).tdiv 4) 1) := by
  obtain ⟨h₁, h₂, h₃, h₄⟩ := h
  have hrtt : i32 (max age 1 : Nat) = (max age 1 : Nat) := i32_of_mem (by omega)
  dsimp only
  rw [hrtt]
  generalize hr : ((max age 1 : Nat) : Int) = rtt
  have hr₁ : 1 ≤ rtt := by omega
  have hr₂ : 8 * rtt < 2 ^ 31 := by omega
  rw [i32_of_mem (n := 3 * rttvar) (by omega), i32_of_mem (n := srtt - rtt) (by omega),
    i32_of_mem (n := 7 * srtt) (by omega), i32_of_mem (n := ((srtt - rtt).natAbs : Int)) (by omega),
    i32_of_mem (n := 3 * rttvar + ((srtt - rtt).natAbs : Int)) (by omega),
      i32_of_mem (n := 7 * srtt + rtt) (by omega),
    Int.tdiv_eq_ediv_of_nonneg (by omega), Int.tdiv_eq_ediv_of_nonneg (by omega)]
  unfold srttMinMs
  constructor <;> omega

theorem Calm.updateRtt (h : Calm t ch) {p : Reliable.PendingPacket}
    (hp : p.retransmitted = false → 8 * ((now - p.actualSentAt.getD p.enqueuedAt) / 1000000) < 2 ^ 31) :
    Calm t (ch.updateRtt p now) := by
  unfold Reliable.ReliableChannel.updateRtt
  split
  · exact h
  rename_i hsent
  exact ⟨h.ranged, h.smooth.average (hp (by simpa using hsent))⟩

theorem Calm.send (ht : t.rtoMaxMs < 2 ^ 31) (h : Calm t ch) {inner : CompactPacketType} {body : Bytes}
    {hint : Option Int} (hhint : Modest hint) : Calm t (ch.send inner body dest hint now).1 := by
  unfold Reliable.ReliableChannel.send
  split
  · exact h
  have hrto := (initialRtoForSend_eq ht h.smooth hhint).2
  rw [← h.ranged.1] at hrto
  exact ⟨h.ranged.insert (h.ranged.1 ▸ hrto), h.smooth⟩

section
variable (h : Calm t ch)
include h

theorem Calm.markSent {sentAt : Instant} : Calm t (ch.markSent seq sentAt) := by
  unfold Reliable.ReliableChannel.markSent
  split
  · exact h
  rename_i p hp
  split
  · exact h
  exact ⟨h.ranged.insert (h.ranged.2 seq p hp), h.smooth⟩

theorem Calm.onAck (hop : Prompt ch (.op (.onAck seq fromEp now))) : Calm t (ch.onAck seq fromEp now) := by
  unfold Reliable.ReliableChannel.onAck
  split
  · exact h
  rename_i p hp
  split
  · have herased : Calm t { ch with pending := ch.pending.erase seq } := ⟨h.ranged.erase, h.smooth⟩
    have hcalm := herased.updateRtt (hop p hp)
    exact ⟨hcalm.ranged, hcalm.smooth⟩
  · exact h

theorem Calm.migrateDest {oldDest newDest : SocketAddr} : Calm t (ch.migrateDest oldDest newDest) := by
  unfold Reliable.ReliableChannel.migrateDest
  split
  · exact h
  refine ⟨⟨h.ranged.1, fun k q hq => ?_⟩, h.smooth⟩
  obtain ⟨p, hp, hq⟩ := map_eq_some_iff.mp ((HashMap.lookup_mapVals ch.pending _ k).symm.trans hq)
  have hlimits := h.ranged.2 k p hp
  split at hq
  · cases hq
    exact hlimits
  cases hq
  exact hlimits

theorem Calm.flushDest : Calm t (ch.flushDest dest) := by
  obtain ⟨heap, due, hb⟩ :=
    Reliable.ReliableChannel.rebuild_eq { ch with pending := ch.pending.retain fun _ p => p.dest ≠ dest }
  unfold Reliable.ReliableChannel.flushDest
  rw [hb]
  refine ⟨⟨h.ranged.1, fun k q hq => ?_⟩, h.smooth⟩
  exact h.ranged.2 k q (Option.filter_eq_some_iff.mp ((HashMap.lookup_retain ch.pending _ k).symm.trans hq)).1

theorem Calm.tickInto : Calm t (ch.tickInto now).ch := by
  refine Reliable.ReliableChannel.tickInto_invariant ch now (I := fun s => Calm t s.ch) ?_ ?_ h
  · exact fun s heap due hs => ⟨hs.ranged, hs.smooth⟩
  intro s seq p hp hs
  refine ⟨hs.ranged.fire, ?_⟩
  unfold Ticked.fire
  split
  · exact hs.smooth
  exact hs.smooth

end

theorem Calm.step (ht : t.rtoMaxMs < 2 ^ 31) (h : Calm t ch) (op : ChannelOp) (hop : Prompt ch op) :
    Calm t (channelStep ch op).1 := by
  cases op with
  | resetSession => exact ⟨⟨h.ranged.1, fun _ _ hq => (nomatch hq)⟩, smooth_default⟩
  | op op =>
    cases op with
    | send inner body dest hint now => exact h.send ht hop
    | markSent seq sentAt => exact h.markSent
    | onAck seq fromEp now => exact h.onAck hop
    | migrateDest oldDest newDest => exact h.migrateDest
    | flushDest dest => exact h.flushDest
    | applyTuning t => exact hop.elim
    | tickInto now => exact h.tickInto

end

/-! ## Scores -/

structure Scored (ewma : RoutingEwmaTuning) : Prop where
  old_nonneg : 0 ≤ ewma.jitterEwmaOld
  new_nonneg : 0 ≤ ewma.jitterEwmaNew
  scale_nonneg : 0 ≤ ewma.qualityLossScale
  div_pos : 0 < ewma.qualityJitterDiv
  loss_cap : 0 ≤ ewma.qualityLossPenaltyCap ∧ ewma.qualityLossPenaltyCap ≤ 100
  jitter_cap : 0 ≤ ewma.qualityJitterPenaltyCap ∧ ewma.qualityJitterPenaltyCap ≤ 100
  clamp_mem : 0 ≤ ewma.rttScoreClampMs ∧ ewma.rttScoreClampMs ≤ 2000

theorem renormalizePair_nonneg {old new : ℚ} :
    0 ≤ (Advanced.renormalizePair old new).1 ∧ 0 ≤ (Advanced.renormalizePair old new).2 := by
  have hold := (Advanced.clampTo_mem old (by norm_num : (0 : ℚ) ≤ 1)).1
  have hnew := (Advanced.clampTo_mem new (by norm_num : (0 : ℚ) ≤ 1)).1
  unfold Advanced.renormalizePair
  dsimp only
  split
  · rename_i hsum
    exact ⟨Binary64.representable_zero.le_round (div_nonneg hold hsum.le),
      Binary64.representable_zero.le_round (div_nonneg hnew hsum.le)⟩
  · norm_num

theorem scored_clamp {t : Advanced.RoutingEwmaTuning} : Scored t.clamp.toRoute where
  old_nonneg := (renormalizePair_nonneg).1
  new_nonneg := (renormalizePair_nonneg).2
  scale_nonneg := (Advanced.clampTo_mem t.qualityLossScale (by norm_num : (0 : ℚ) ≤ 200)).1
  div_pos := lt_of_lt_of_le one_pos (Advanced.clampTo_mem t.qualityJitterDiv (by norm_num : (1 : ℚ) ≤ 30)).1
  loss_cap := Advanced.clampTo_mem t.qualityLossPenaltyCap (by norm_num)
  jitter_cap := Advanced.clampTo_mem t.qualityJitterPenaltyCap (by norm_num)
  clamp_mem := by
    have := Advanced.clampTo_mem t.rttScoreClampMs (by decide : (50 : Int) ≤ 2000)
    exact ⟨le_trans (by decide) this.1, this.2⟩

structure Measured (e : RouteEntry) : Prop where
  jitter : 0 ≤ e.jitterMs
  success : 0 ≤ e.successStreak ∧ e.successStreak ≤ 100
  fail : 0 ≤ e.failStreak ∧ e.failStreak ≤ 100

theorem truncI32_mem {q c : ℚ} (hq : 0 ≤ q) (hc : 0 ≤ c ∧ c ≤ 100) :
    0 ≤ truncI32 (min q c) ∧ truncI32 (min q c) ≤ 100 := by
  have hmin : 0 ≤ min q c := le_min hq hc.1
  have hfloor : 0 ≤ ⌊min q c⌋ := Int.floor_nonneg.mpr hmin
  have hle : ⌊min q c⌋ ≤ 100 := by
    have : ((⌊min q c⌋ : Int) : ℚ) ≤ (100 : Int) := (Int.floor_le _).trans ((min_le_right _ _).trans hc.2)
    exact_mod_cast this
  unfold truncI32
  rw [if_pos hmin]
  omega

section
variable {e : RouteEntry} {ewma : RoutingEwmaTuning}

theorem averageSample_measured (hw : Scored ewma) (h : Measured e) (rttMs : Int) :
    Measured (e.averageSample rttMs ewma) := by
  refine ⟨add_nonneg (mul_nonneg hw.old_nonneg h.jitter) (mul_nonneg hw.new_nonneg ?_), h.success, h.fail⟩
  unfold ratAbs
  split
  · rename_i hneg
    exact (neg_pos.mpr hneg).le
  rename_i hnn
  exact not_lt.mp hnn

theorem updateRttBaseOnSample_measured (h : Measured e) (x : ℚ) (now : Instant) (cg : CongestionTuning) :
    Measured (e.updateRttBaseOnSample x now cg) := by
  obtain ⟨_, _, _, _, _, hbase⟩ := RoutingTable.updateRttBaseOnSample_frame e x now cg
  rw [hbase]
  exact ⟨h.jitter, h.success, h.fail⟩

theorem scoreSample_eq (hw : Scored ewma) (h : Measured e) :
    Checked.scoreSample e rttMs ewma = some (e.scoreSample rttMs ewma) := by
  have hjitter := truncI32_mem (div_nonneg h.jitter hw.div_pos.le) hw.jitter_cap
  have hloss :=
    truncI32_mem (mul_nonneg (le_max_right (e.lossEwma * ewma.lossEwmaDecay - ewma.lossEwmaSuccessDelta) 0)
    hw.scale_nonneg) hw.loss_cap
  have hbounded := Advanced.clampTo_mem rttMs hw.clamp_mem.1
  have hmax := hw.clamp_mem.2
  obtain ⟨hs, hs'⟩ := h.success
  obtain ⟨hf, hf'⟩ := h.fail
  unfold Checked.scoreSample RouteEntry.scoreSample
  dsimp only
  rw [Advanced.clamp_of_le _ hw.clamp_mem.1, bind_eq_bind, bind_some,
    i32_of_mem (by omega), Int.tdiv_eq_ediv_of_nonneg hbounded.1, fitI32_of_mem (by omega), bind_some,
    fitI32_of_mem (by omega), bind_some, fitI32_of_mem (by omega), bind_some, fitI32_of_mem (by omega),
    bind_some, fitI32_of_mem (by omega), bind_some]
  rfl

theorem scoreSample_measured (h : Measured e) (rttMs : Int) : Measured (e.scoreSample rttMs ewma) := by
  obtain ⟨hs, hs'⟩ := h.success
  obtain ⟨hf, hf'⟩ := h.fail
  refine ⟨h.jitter, ?_, ?_⟩
  · unfold RouteEntry.scoreSample
    dsimp only
    omega
  unfold RouteEntry.scoreSample
  dsimp only
  omega

theorem releaseHold_eq (hfo : 0 ≤ fo.r2dSuccessMin ∧ fo.r2dSuccessMin * 2 < 2 ^ 31) :
    Checked.releaseHold e fo = some (e.releaseHold fo) := by
  unfold Checked.releaseHold RouteEntry.releaseHold
  split
  · rename_i hscore
    rw [fitI32_of_mem (by omega), bind_eq_bind, bind_some]
    split
    · rename_i hstreak
      rw [if_pos ⟨hscore, hstreak⟩]
      rfl
    rename_i hstreak
    rw [if_neg fun h => hstreak h.2]
    rfl
  rename_i hscore
  rw [if_neg fun h => hscore h.1]

section
variable (hw : Scored ewma) (h : Measured e)
include hw h

theorem applyRttSample_eq (hfo : 0 ≤ fo.r2dSuccessMin ∧ fo.r2dSuccessMin * 2 < 2 ^ 31)
    : Checked.applyRttSample e rttMs fo cg ewma now = some (e.applyRttSample rttMs fo cg ewma now) := by
  unfold Checked.applyRttSample RouteEntry.applyRttSample
  dsimp only
  rw [scoreSample_eq hw (updateRttBaseOnSample_measured (averageSample_measured hw h rttMs) rttMs now cg),
    bind_eq_bind, bind_some, releaseHold_eq hfo]

theorem applyRttSample_measured (rttMs : Int) (fo : FailoverTuning)
    (cg : CongestionTuning) (now : Instant) : Measured (e.applyRttSample rttMs fo cg ewma now) := by
  have hgrade : ∀ {e : RouteEntry}, Measured e → Measured (e.gradeState fo) := by
    intro e h
    unfold RouteEntry.gradeState
    split
    · exact ⟨h.jitter, h.success, h.fail⟩
    split
    · exact ⟨h.jitter, h.success, h.fail⟩
    exact h
  have hhold : ∀ {e : RouteEntry}, Measured e → Measured (e.releaseHold fo) := by
    intro e h
    unfold RouteEntry.releaseHold
    split
    · exact ⟨h.jitter, h.success, h.fail⟩
    exact h
  have hbase := updateRttBaseOnSample_measured (averageSample_measured hw h rttMs) rttMs now cg
  exact hhold (hgrade (scoreSample_measured hbase rttMs))

theorem noteRtt_measured : Measured (e.noteRtt fromEp rttMs fo cg ewma now) := by
  have hactive : ∀ {e : RouteEntry}, Measured e → Measured (e.noteActiveRtt rttMs fo cg ewma now) := by
    intro e h
    unfold RouteEntry.noteActiveRtt
    split
    · apply applyRttSample_measured hw
      exact ⟨le_refl (0 : ℚ), h.success, h.fail⟩
    apply applyRttSample_measured hw
    exact ⟨h.jitter, h.success, h.fail⟩
  have hseen : Measured { e with lastSeen := now } := ⟨h.jitter, h.success, h.fail⟩
  unfold RouteEntry.noteRtt
  dsimp only
  split
  · exact ⟨(hactive hseen).jitter, (hactive hseen).success, (hactive hseen).fail⟩
  exact ⟨h.jitter, h.success, h.fail⟩

end

theorem noteFail_measured (h : Measured e) : Measured (e.noteFail fromEp ewma now) := by
  obtain ⟨hs, hs'⟩ := h.success
  obtain ⟨hf, hf'⟩ := h.fail
  refine ⟨h.jitter, ?_, ?_⟩
  · unfold RouteEntry.noteFail
    dsimp only
    omega
  unfold RouteEntry.noteFail
  dsimp only
  omega

end

/-! ## Runs of the table -/

/-- A table with scored knobs whose entries are measured. -/
structure Healthy (ewma : RoutingEwmaTuning) (t : RoutingTable) : Prop where
  knobs : t.routingEwma = ewma
  entries : ∀ v e, t.table.lookup v = some e → Measured e

namespace Healthy

variable {ewma : RoutingEwmaTuning} {t : RoutingTable}

section
variable (h : Healthy ewma t)
include h

theorem onEntry {vip : String} (hf : ∀ {e}, Measured e → Measured (f e)) : Healthy ewma (t.onEntry vip f) := by
  refine ⟨h.knobs, fun v e he => ?_⟩
  replace he : (t.table.modify vip f).lookup v = some e := he
  rw [HashMap.lookup_modify] at he
  split at he
  · obtain ⟨e', he', rfl⟩ := map_eq_some_iff.mp he
    exact hf (h.entries _ e' he')
  exact h.entries v e he

theorem onVip {vip : Option String} (hf : ∀ {e}, Measured e → Measured (f e)) : Healthy ewma (t.onVip vip f) := by
  cases vip with
  | none => exact h
  | some vip => exact h.onEntry hf

theorem rebuild (vip : String) : Healthy ewma (t.rebuildPathEpIndexForVip vip) := by
  rw [RoutingTable.rebuild_eq]
  exact ⟨h.knobs, h.entries⟩

theorem remove (vip : String) (now : Instant) : Healthy ewma (t.remove vip now) := by
  refine ⟨?_, fun v e he => ?_⟩
  · rw [← h.knobs]
    unfold RoutingTable.remove RoutingTable.clearPathEpIndexForVip
    dsimp only
    split <;> rfl
  rw [RoutingTable.remove_table] at he
  split at he
  · cases he
  exact h.entries v e he

theorem place (vip : String) (ep : SocketAddr) (nodeId : Option String) (now : Instant) :
    Healthy ewma (t.place vip ep nodeId now) := by
  have hentry :
      Measured (RoutingTable.placedEntry (t.table.lookup vip) ep nodeId t.routingEwma.qualityInitial now) := by
    unfold RoutingTable.placedEntry
    cases hold : t.table.lookup vip with
    | none =>
      have hzero : (0 : Int) ≤ 0 ∧ (0 : Int) ≤ 100 := by decide
      exact ⟨le_refl (0 : ℚ), hzero, hzero⟩
    | some e =>
      have := h.entries vip e hold
      exact ⟨this.jitter, this.success, this.fail⟩
  unfold RoutingTable.place
  dsimp only
  apply rebuild
  refine ⟨h.knobs, fun v e he => ?_⟩
  replace he := (HashMap.lookup_insert_eq t.table vip v _).symm.trans he
  split at he
  · cases he
    split
    · exact ⟨hentry.jitter, hentry.success, hentry.fail⟩
    exact hentry
  · exact h.entries v e he

theorem update {vip : String} {ep : SocketAddr} {nodeId : Option String} :
    Healthy ewma (t.update vip ep nodeId now) := by
  have hprune : Healthy ewma (t.pruneIfDue now) := by
    unfold RoutingTable.pruneIfDue
    split
    · exact ⟨h.knobs, h.entries⟩
    exact h
  unfold RoutingTable.update
  dsimp only
  split
  · exact hprune.place vip ep nodeId now
  · exact hprune
  · exact (hprune.remove _ now).place vip ep nodeId now
  · apply place
    exact ⟨hprune.knobs, hprune.entries⟩

end

theorem foldl {α : Type} {f : RoutingTable → α → RoutingTable} (hf : ∀ {t} a, Healthy ewma t → Healthy ewma (f t a))
    {as : List α} (h : Healthy ewma t) : Healthy ewma (as.foldl f t) :=
  List.foldlRecOn as f h fun _ ht a _ => hf a ht

theorem promoteStaleIfNeeded (h : Healthy ewma t) (ep : SocketAddr) (now : Instant) :
    Healthy ewma (t.promoteStaleIfNeeded ep now) := by
  refine h.onVip fun he => ?_
  split
  · exact ⟨he.jitter, he.success, he.fail⟩
  exact he

theorem drainAll (now : Instant) (victims : List String) (acc : RoutingTable × List (String × SocketAddr × String))
    (h : Healthy ewma acc.1) : Healthy ewma (victims.foldl (RoutingTable.drainOne now) acc).1 := by
  refine List.foldlRecOn (motive := fun acc : RoutingTable × _ => Healthy ewma acc.1) victims _ h fun acc h vip _ => ?_
  unfold RoutingTable.drainOne
  split
  · exact h.remove vip now
  exact h

theorem apply (hw : Scored ewma) (h : Healthy ewma t) {op : RoutingTable.Op}
    (hop : ∀ fo cg ewma, op ≠ .setTuning fo cg ewma) : Healthy ewma (t.apply now op) := by
  have hbytes : ∀ {e : RouteEntry} (ep : SocketAddr) (bytes : Nat) (adv : Bool) (w : RoutingEwmaTuning), Measured e →
      Measured (e.noteBytesReceived ep bytes adv w now) := by
    intro e ep bytes adv w he
    unfold RouteEntry.noteBytesReceived
    dsimp only
    split
    · exact ⟨he.jitter, he.success, he.fail⟩
    exact ⟨he.jitter, he.success, he.fail⟩
  cases op with
  | update vip ep nodeId => exact h.update
  | remove vip => exact h.remove vip now
  | drainVipsOutsideSubnet myVip pre order =>
    show Healthy ewma (t.drainVipsOutsideSubnet myVip pre order now).1
    unfold RoutingTable.drainVipsOutsideSubnet
    split
    · exact h
    exact drainAll now _ (t, []) h
  | evictOldStale age order => exact foldl (fun vip ht => ht.remove vip now) h
  | stampRelayHop vip relay =>
    show Healthy ewma (t.stampRelayHop vip relay now)
    unfold RoutingTable.stampRelayHop
    split
    · exact h
    apply rebuild
    exact h.onEntry fun he => ⟨he.jitter, he.success, he.fail⟩
  | clearRelayPath vip =>
    apply rebuild
    exact h.onEntry fun he => ⟨he.jitter, he.success, he.fail⟩
  | noteRtt fromEp rttMs ignore =>
    refine h.onVip fun he => ?_
    rw [h.knobs]
    exact noteRtt_measured hw he
  | noteFwdOwd fromEp owd rttMs ignore =>
    refine h.onVip fun {e} he => ?_
    split
    · obtain ⟨_, _, _, _, _, _, _, hbase⟩ := RoutingTable.updateOwdBaseOnSample_frame e owd rttMs now t.congestion
      rw [hbase]
      exact ⟨he.jitter, he.success, he.fail⟩
    · exact he
  | noteFail fromEp ignore => exact h.onVip fun he => noteFail_measured he
  | noteBytesReceived fromEp bytes adv ignore => exact h.onVip fun he => hbytes _ _ _ _ he
  | noteBytesReceivedForVipU32 dst bytes adv => exact h.onVip fun he => hbytes _ _ _ _ he
  | noteBytesReceivedBatch batch adv ignore =>
    exact foldl (fun a ht => ht.onVip fun he => hbytes _ _ _ _ he) h
  | noteRelayFallback vip =>
    refine h.onEntry fun he => ?_
    unfold RouteEntry.noteRelayFallback
    split
    · exact he
    exact ⟨he.jitter, he.success, he.fail⟩
  | beginTransition vip oldEp oldKind window =>
    refine h.onEntry fun he => ?_
    unfold RouteEntry.beginTransition
    split
    · exact he
    exact ⟨he.jitter, he.success, he.fail⟩
  | endTransition vip => exact h.onEntry fun he => ⟨he.jitter, he.success, he.fail⟩
  | applyLastSeenBatch batch =>
    refine foldl (fun a ht => ?_) h
    exact ht.onVip fun he => ⟨he.jitter, he.success, he.fail⟩
  | touchEndpoint ep =>
    apply promoteStaleIfNeeded
    exact h.onVip fun he => ⟨he.jitter, he.success, he.fail⟩
  | promoteStaleIfNeeded ep => exact h.promoteStaleIfNeeded ep now
  | markStaleIfIdle idle =>
    refine ⟨h.knobs, fun v e he => ?_⟩
    obtain ⟨e', he', heq⟩ := map_eq_some_iff.mp ((HashMap.lookup_mapVals t.table _ v).symm.trans he)
    have hm := h.entries v e' he'
    split at heq
    · cases heq
      exact ⟨hm.jitter, hm.success, hm.fail⟩
    cases heq
    exact hm
  | pruneTombstones retainVips => exact ⟨h.knobs, h.entries⟩
  | setTuning fo cg ewma => exact absurd rfl (hop fo cg ewma)

end Healthy

/-! ## Both consumers -/

section
variable {w w' : Advanced.AdvancedTuning}

/-- A new channel with the knobs. -/
def tunedChannel (w : Advanced.AdvancedTuning) : Reliable.ReliableChannel :=
  Reliable.ReliableChannel.new.applyTuning w.reliable.clamped

/-- A new table with the knobs. -/
def tunedTable (w : Advanced.AdvancedTuning) (start : Instant) : RoutingTable :=
  (RoutingTable.new start).apply start
    (.setTuning w.failover.toRoute w.congestion.toRoute w.routingEwma.toRoute)

def KeepsKnobs (_ : RoutingTable) (op : Instant × RoutingTable.Op) : Prop :=
  ∀ fo cg ewma, op.2 ≠ .setTuning fo cg ewma

/-- The timeouts that the channel uses and computes lie within the limits, and no operation on them fails. -/
structure TimeoutsSafe (w : Advanced.AdvancedTuning) (ch : Reliable.ReliableChannel) : Prop where
  pending : ∀ seq p, ch.pending.lookup seq = some p → w.reliable.rtoMinMs ≤ p.rtoMs ∧ p.rtoMs ≤ w.reliable.rtoMaxMs
  compute : ∃ rto, Checked.computeRtoMs ch.srttMs ch.rttvarMs ch.tuning = some rto ∧
    w.reliable.rtoMinMs ≤ rto ∧ rto ≤ w.reliable.rtoMaxMs
  send : ∀ rttHintMs, Modest rttHintMs →
    ∃ rto, Checked.initialRtoForSend ch.srttMs ch.rttvarMs rttHintMs ch.tuning = some rto ∧
      w.reliable.rtoMinMs ≤ rto ∧ rto ≤ w.reliable.rtoMaxMs
  tick : ∀ now, (Checked.tickInto ch now).isSome

theorem Calm.timeoutsSafe (h : Calm w.reliable.clamped ch)
    (hw : w.reliable.clamp = w.reliable) (hrto : w.reliable.rtoMaxMs < 2 ^ 31) : TimeoutsSafe w ch := by
  have hlimits :
      ∀ {rto}, InLimits w.reliable.clamped rto → w.reliable.rtoMinMs ≤ rto ∧ rto ≤ w.reliable.rtoMaxMs := by
    intro rto h
    rw [← hw]
    exact h
  have ht : w.reliable.clamped.rtoMaxMs < 2 ^ 31 := by
    show w.reliable.clamp.rtoMaxMs < 2 ^ 31
    rw [hw]
    exact hrto
  refine ⟨fun seq p hp => hlimits (h.ranged.2 seq p hp), ?_, fun hint hh => ?_, fun now => ?_⟩
  · rw [h.ranged.1]
    obtain ⟨hc, hin⟩ := computeRtoMs_eq ht ch.srttMs ch.rttvarMs (by
      have := h.smooth.srtt_lt
      have := h.smooth.rttvar_lt
      unfold srttMinMs
      omega)
    exact ⟨_, hc, hlimits hin⟩
  · rw [h.ranged.1]
    obtain ⟨hc, hin⟩ := initialRtoForSend_eq ht h.smooth hh
    exact ⟨_, hc, hlimits hin⟩
  rw [tickInto_eq ht h.ranged now]
  rfl

/-- Clamped knobs whose timeout limit fits `i32` and whose success count has a double that fits make both consumers
  safe: the channel in every run with prompt acknowledgements and modest hints, and the entries of the table in every
  run, for all samples. -/
theorem consumers_safe (hw : w.clamp = some w') (hrto : w'.reliable.rtoMaxMs < 2 ^ 31)
    (hr2d : w'.failover.r2dSuccessMin * 2 < 2 ^ 31) :
    (∀ ops i, Each channelStep (tunedChannel w') ops Prompt →
      TimeoutsSafe w' (stateAt channelStep (tunedChannel w') ops i)) ∧
      ∀ start ops i vip e, Each RoutingTable.step (tunedTable w' start) ops KeepsKnobs →
        (stateAt RoutingTable.step (tunedTable w' start) ops i).table.lookup vip = some e →
        ∀ rttMs now, (Checked.applyRttSample e rttMs w'.failover.toRoute w'.congestion.toRoute w'.routingEwma.toRoute
          now).isSome := by
  obtain ⟨_, _, _, hfailover, hreliable, _, _, hewma, _⟩ := Advanced.AdvancedTuning.clamp_eq_some.mp hw
  have hclamp : w'.reliable.clamp = w'.reliable := by
    rw [hreliable]
    exact Advanced.ReliableTuning.clamp_clamp
  have hscored : Scored w'.routingEwma.toRoute := by
    rw [hewma]
    exact scored_clamp
  have hsuccess : 0 ≤ w'.failover.r2dSuccessMin := by
    rw [hfailover]
    exact le_trans (by decide) (le_max_right w.failover.r2dSuccessMin 1)
  constructor
  · intro ops i hops
    have ht : w'.reliable.clamped.rtoMaxMs < 2 ^ 31 := by
      show w'.reliable.clamp.rtoMaxMs < 2 ^ 31
      rw [hclamp]
      exact hrto
    have hcalm : Calm w'.reliable.clamped (stateAt channelStep (tunedChannel w') ops i) :=
      Machine.invariant calm_new (fun ch op hop h => h.step ht op hop) hops i
    exact hcalm.timeoutsSafe hclamp hrto
  intro start ops i vip e hops he rttMs now
  have hhealthy : Healthy w'.routingEwma.toRoute (stateAt RoutingTable.step (tunedTable w' start) ops i) := by
    refine Machine.invariant ?_ (fun t op hop h => h.apply hscored hop) hops i
    exact ⟨rfl, fun _ _ h => (nomatch h)⟩
  rw [applyRttSample_eq hscored (hhealthy.entries vip e he) ⟨hsuccess, hr2d⟩]
  rfl

end

def somePeer : SocketAddr := .v4 1 9000

/-- The default knobs, a packet and its acknowledgement after twenty milliseconds. -/
theorem default_consumers_safe : ∃ w, Advanced.AdvancedTuning.default.clamp = some w ∧
    TimeoutsSafe w (stateAt channelStep (tunedChannel w)
      [.op (.send .joinAck [] somePeer (some 30) 0), .op (.onAck 1 somePeer (millis 20))] 2) := by
  obtain ⟨w, hw⟩ :=
    Option.isSome_iff_exists.mp (by decide +kernel : Advanced.AdvancedTuning.default.clamp.isSome = true)
  obtain ⟨_, _, _, hfailover, hreliable, _⟩ := Advanced.AdvancedTuning.clamp_eq_some.mp hw
  have hrto : w.reliable.rtoMaxMs < 2 ^ 31 := by
    rw [hreliable]
    decide
  have hr2d : w.failover.r2dSuccessMin * 2 < 2 ^ 31 := by
    rw [hfailover]
    decide
  have hage : ∀ sentAt : Nat, 8 * ((millis 20 - sentAt) / 1000000) < 2 ^ 31 := by
    intro sentAt
    have : millis 20 - sentAt ≤ 20000000 := Nat.sub_le _ _
    omega
  refine ⟨w, hw, (consumers_safe hw hrto hr2d).1 _ 2 ?_⟩
  refine each_cons.mpr ⟨?_, each_cons.mpr ⟨fun p _ _ => hage _, nofun⟩⟩
  intro r hr
  cases hr
  decide

/-- The default knobs with other limits of the timeouts. -/
def withRto (rtoMinMs rtoMaxMs : Nat) : Advanced.AdvancedTuning :=
  { Advanced.AdvancedTuning.default with
    reliable := { Advanced.ReliableTuning.default with rtoMinMs := rtoMinMs, rtoMaxMs := rtoMaxMs } }

def withSuccessMin (r2dSuccessMin : Int) : Advanced.AdvancedTuning :=
  { Advanced.AdvancedTuning.default with
    failover := { Advanced.FailoverTuning.default with r2dSuccessMin := r2dSuccessMin } }

def oneSent : List ChannelOp := [.op (.send .joinAck [] somePeer none 0)]

/-- A limit of the type `u32`, a hint of twelve days, an acknowledgement after twenty-four days, a least timeout of
  the same length and a success count of the type `i32` are all accepted, and each stops or overflows. -/
theorem consumers_overflow :
    ((withRto 75 (2 ^ 31)).clamp.map fun w => Checked.computeRtoMs 100 50 (tunedChannel w).tuning) = some none ∧
      ((withRto 75 400).clamp.map fun w => Checked.initialRtoForSend 100 50 (some (2 ^ 30)) (tunedChannel w).tuning) =
        some none ∧
      ((withRto 75 400).clamp.map fun w =>
        let ch := run channelStep (tunedChannel w) (oneSent ++ [.op (.onAck 1 somePeer (millis (2 ^ 31 - 1000)))])
        Checked.computeRtoMs ch.srttMs ch.rttvarMs ch.tuning) = some none ∧
      ((withRto (2 ^ 31) (2 ^ 31)).clamp.map fun w =>
        (Checked.tickInto (run channelStep (tunedChannel w) oneSent) (millis (2 ^ 31))).isSome) = some false ∧
      ((withSuccessMin (2 ^ 30)).clamp.map fun w =>
        (((tunedTable w 0).update "10.0.0.2" somePeer none 0).table.lookup "10.0.0.2").map fun e =>
          (Checked.applyRttSample e 10 w.failover.toRoute w.congestion.toRoute w.routingEwma.toRoute 0).isSome) =
        some (some false) := by
  refine ⟨?_, ?_, ?_, ?_, ?_⟩
  · decide +kernel
  · decide +kernel
  · decide +kernel
  · decide +kernel
  · decide +kernel

end ConnectUnit.Checked
