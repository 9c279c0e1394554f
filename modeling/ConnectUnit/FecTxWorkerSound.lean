import ConnectUnit.FecSound
import ConnectUnit.FecTxWorker

/-!
# What the FEC transmit worker does with a packet

Removing a peer is final if none of its packets is on the way to the worker,
and stopping loses nothing if no packet is on the way at all: what is in the
channel or in hand then is not looked at again.
-/

open Machine (Each each_cons emitAt emitAt_mem stateAt stateAt_succ)
open List (forall_mem_nil mem_append mem_map mem_singleton)

namespace ConnectUnit.FecTxWorker

open Fec

variable {drain : Bool} {o : Output} {p : FecTxData} {ev : Event}
variable {env : Env} {cmd : FecTxControl}

/-- The destination of packets that leave the worker. -/
def Output.offerTo : Output → Option SocketAddr
  | .batch dest _ _ => some dest
  | .enqueueNormal dest _ _ => some dest
  | _ => none

section
variable {γ : Type} {rs : Codec γ UInt8} {st : WorkerState γ} {env : Env} {d : SocketAddr}

/-! ## Destinations -/

namespace WorkerState

theorem dispatchOutput_dest {dest : SocketAddr} {out : FecOutput} {accepted : Bool}
    (h : o ∈ st.dispatchOutput dest out drain accepted) : o.offerTo = some dest := by
  unfold dispatchOutput at h
  split at h
  · cases h
  · split at h
    · rw [mem_singleton.mp h]
      rfl
    · rw [mem_singleton.mp h]
      rfl
  rw [mem_singleton.mp h]
  rfl

theorem dispatchAll_dest {pending : List (SocketAddr × FecOutput)} {k : Nat}
    (h : o ∈ st.dispatchAll env drain pending k) : ∃ x ∈ pending, o.offerTo = some x.1 := by
  induction pending generalizing k with
  | nil => cases h
  | cons x pending ih =>
    rcases mem_append.mp h with h | h
    · exact ⟨x, List.mem_cons_self, dispatchOutput_dest h⟩
    obtain ⟨y, hy, ho⟩ := ih h
    exact ⟨y, List.mem_cons_of_mem x hy, ho⟩

theorem notMem_of_lookup {l : List (Sigma fun _ : SocketAddr => FecEncoder γ)} (hl : l.Perm st.encoders.entries)
    (h : st.encoders.lookup d = none) : ∀ x ∈ l, x.1 ≠ d := by
  intro x hx hd
  have : st.encoders.lookup x.1 = some x.2 := (HashMap.lookup_eq_some_iff _).mpr (hl.mem_iff.mp hx)
  rw [hd, h] at this
  cases this

theorem flushAll_quiet (h : st.encoders.lookup d = none) : ∀ o ∈ (st.flushAll rs env).2, o.offerTo ≠ some d := by
  intro o ho hd
  obtain ⟨x, hx, hxo⟩ := dispatchAll_dest ho
  obtain ⟨e, he, rfl⟩ := mem_map.mp hx
  refine notMem_of_lookup (env.order.arrange_perm _) h e he ?_
  rw [hd] at hxo
  exact (Option.some.inj hxo).symm

theorem flushDue_quiet (h : st.encoders.lookup d = none) :
    ∀ o ∈ (st.flushDue rs env drain).2, o.offerTo ≠ some d := by
  intro o ho hd
  obtain ⟨x, hx, hxo⟩ := dispatchAll_dest ho
  obtain ⟨e, he, rfl⟩ := mem_map.mp hx
  refine notMem_of_lookup (env.order.arrange_perm _) h e (List.mem_of_mem_filter he) ?_
  rw [hd] at hxo
  exact (Option.some.inj hxo).symm

theorem flushDue_lookup : (st.flushDue rs env drain).1.encoders.lookup d =
    (st.encoders.lookup d).map fun e => if e.needsFlush env.now then (flushOne rs env drain d e).1 else e :=
  HashMap.lookup_mapWithKey st.encoders _

theorem handlePush_lookup (h : p.dest ≠ d) : (st.handlePush rs env p).1.encoders.lookup d = st.encoders.lookup d := by
  unfold handlePush
  dsimp only
  split
  · rfl
  exact (HashMap.lookup_insert_eq st.encoders p.dest d _).trans (if_neg h.symm)

theorem handleControl_quiet (rs : Codec γ UInt8) (env : Env) (h : st.encoders.lookup d = none) (cmd : FecTxControl) :
    (st.handleControl rs env cmd).1.encoders.lookup d = none ∧ ∀ o ∈ (st.handleControl rs env cmd).2.1, o.offerTo ≠
    some d := by
  have hflush : ∀ cmd, ∀ o ∈ (st.flushAll rs env).2 ++ [Output.reply cmd], o.offerTo ≠ some d := by
    intro cmd o ho
    rcases mem_append.mp ho with ho | ho
    · exact flushAll_quiet h o ho
    rw [mem_singleton.mp ho]
    nofun
  cases cmd with
  | flushAll => exact ⟨rfl, hflush _⟩
  | retune t => exact ⟨rfl, hflush _⟩
  | setEncodeEnabled enabled => exact ⟨h, forall_mem_nil _⟩
  | removePeer dest =>
    refine ⟨(HashMap.lookup_erase_eq st.encoders dest d).trans ?_, fun o ho => ?_⟩
    · split
      · rfl
      · exact h
    rw [mem_singleton.mp ho]
    nofun
  | resetSession => exact ⟨rfl, hflush _⟩
  | stop => exact ⟨rfl, hflush _⟩

theorem handleControl_output (rs : Codec γ UInt8) (env : Env) (cmd : FecTxControl)
    (h : o ∈ (st.handleControl rs env cmd).2.1) : (∃ dest, o.offerTo = some dest) ∨ o = .reply cmd := by
  have hflush :
      ∀ cmd, o ∈ (st.flushAll rs env).2 ++ [.reply cmd] → (∃ dest, o.offerTo = some dest) ∨ o = .reply cmd := by
    intro cmd h
    rcases mem_append.mp h with h | h
    · obtain ⟨x, _, hx⟩ := dispatchAll_dest h
      exact .inl ⟨_, hx⟩
    exact .inr (mem_singleton.mp h)
  cases cmd with
  | flushAll => exact hflush _ h
  | retune t => exact hflush _ h
  | setEncodeEnabled enabled => cases h
  | removePeer dest => exact .inr (mem_singleton.mp h)
  | resetSession => exact hflush _ h
  | stop => exact hflush _ h

theorem handlePush_output (h : o ∈ (st.handlePush rs env p).2) : o.offerTo = some p.dest := by
  unfold handlePush at h
  dsimp only at h
  split at h
  · rw [mem_singleton.mp h]
    rfl
  obtain ⟨x, hx, hxo⟩ := dispatchAll_dest h
  simp only [List.mem_cons, List.not_mem_nil, or_false] at hx
  rcases hx with rfl | rfl | rfl <;> exact hxo

end WorkerState

end

/-! ## Removal -/

namespace Worker

section
variable {γ : Type} {rs : Codec γ UInt8} {w : Worker γ} {d : SocketAddr}

/-- No packet for a peer is on its way to the worker. -/
structure Idle (d : SocketAddr) (w : Worker γ) : Prop where
  channel : ∀ p ∈ w.data, p.dest ≠ d
  hand : ∀ p, w.phase = .received p → p.dest ≠ d

def nextCommand (w : Worker γ) : Option FecTxControl :=
  match w.phase with
  | .control => w.control.head?
  | .received _ => w.control.head?
  | _ => none

inductive Work (rs : Codec γ UInt8) (env : Env) (w : Worker γ) : Worker γ × List Output → Prop
  | command {cmd : FecTxControl} {rest : List FecTxControl} : w.nextCommand = some cmd → w.control = cmd :: rest →
      Work rs env w (w.command rs env cmd rest)
  | move {phase : Phase} : phase ≠ .stopped → (∀ p, phase ≠ .received p) → w.phase ≠ .stopped →
      (∀ p, w.phase ≠ .received p) → Work rs env w ({ w with phase }, [])
  | flush : w.phase = .flush → Work rs env w
      ({ w with flushReq := 0, st := (w.st.flushDue rs env (w.flushReq = 2)).1, phase := .receive },
        (w.st.flushDue rs env (w.flushReq = 2)).2)
  | receive {p : FecTxData} {rest : List FecTxData} : w.phase = .receive → w.data = p :: rest →
      Work rs env w ({ w with data := rest, phase := .received p }, [])
  | push {p : FecTxData} : w.phase = .received p →
      Work rs env w ({ w with st := (w.st.handlePush rs env p).1, phase := .control }, (w.st.handlePush rs env p).2)
  | stopped : w.phase = .stopped → Work rs env w (w, [])

theorem work_spec (rs : Codec γ UInt8) (env : Env) (w : Worker γ) : Work rs env w (w.work rs env) := by
  unfold Worker.work
  split
  · rename_i hphase
    split
    · rename_i hcontrol
      refine .command ?_ hcontrol
      unfold nextCommand
      rw [hphase, hcontrol]
      rfl
    · exact .move nofun nofun (hphase ▸ nofun) (hphase ▸ nofun)
  · rename_i hphase
    split
    · exact .flush hphase
    exact .move nofun nofun (hphase ▸ nofun) (hphase ▸ nofun)
  · rename_i hphase
    split
    · rename_i hdata
      exact .receive hphase hdata
    exact .move nofun nofun (hphase ▸ nofun) (hphase ▸ nofun)
  · rename_i hphase
    split
    · rename_i hcontrol
      refine .command ?_ hcontrol
      unfold nextCommand
      rw [hphase, hcontrol]
      rfl
    · exact .push hphase
  · rename_i hphase
    exact .stopped hphase

/-- A peer is only removed when no packet for it is on its way. -/
def RemovesIdle (w : Worker γ) (ev : Event) : Prop :=
  ∀ env, ev = .work env → ∀ d, w.nextCommand = some (.removePeer d) → Idle d w

structure Clear (d : SocketAddr) (w : Worker γ) : Prop extends Idle d w where
  encoder : w.st.encoders.lookup d = none

theorem Clear.command (h : Clear d w) {rest : List FecTxControl} :
    Clear d (w.command rs env cmd rest).1 ∧ ∀ o ∈ (w.command rs env cmd rest).2, o.offerTo ≠ some d := by
  obtain ⟨henc, hout⟩ := WorkerState.handleControl_quiet rs env h.encoder cmd
  refine ⟨⟨⟨h.channel, fun p hp => ?_⟩, henc⟩, hout⟩
  replace hp : (if (w.st.handleControl rs env cmd).2.2 then Phase.stopped else w.phase) = .received p := hp
  split at hp
  · cases hp
  exact h.hand p hp

theorem Clear.work (h : Clear d w) : Clear d (w.work rs env).1 ∧ ∀ o ∈ (w.work rs env).2, o.offerTo ≠ some d := by
  have hw := work_spec rs env w
  generalize w.work rs env = r at hw ⊢
  cases hw with
  | command _ _ => exact h.command
  | move _ hhand _ _ => exact ⟨⟨⟨h.channel, fun p hp => absurd hp (hhand p)⟩, h.encoder⟩, forall_mem_nil _⟩
  | flush _ =>
    refine ⟨⟨⟨h.channel, nofun⟩, ?_⟩, WorkerState.flushDue_quiet h.encoder⟩
    refine (WorkerState.flushDue_lookup).trans ?_
    rw [h.encoder]
    rfl
  | @receive p rest _ hdata =>
    refine ⟨⟨⟨fun q hq => ?_, fun q hq => ?_⟩, h.encoder⟩, forall_mem_nil _⟩
    · exact h.channel q (hdata ▸ List.mem_cons_of_mem p hq)
    cases hq
    exact h.channel p (hdata ▸ List.mem_cons_self)
  | @push p hphase =>
    have hp := h.hand p hphase
    refine ⟨⟨⟨h.channel, nofun⟩, (WorkerState.handlePush_lookup hp).trans h.encoder⟩, fun o ho hd => hp ?_⟩
    exact Option.some.inj ((WorkerState.handlePush_output ho).symm.trans hd)
  | stopped _ => exact ⟨h, forall_mem_nil _⟩

theorem Clear.step (h : Clear d w) (hev : ∀ p, ev = .tryPush p → p.dest ≠ d) :
    Clear d (w.step rs ev).1 ∧ ∀ o ∈ (w.step rs ev).2, o.offerTo ≠ some d := by
  cases ev with
  | tryPush p =>
    unfold Worker.step
    dsimp only
    split
    · exact ⟨h, by simp [Output.offerTo]⟩
    refine ⟨⟨⟨fun q hq => ?_, h.hand⟩, h.encoder⟩, by simp [Output.offerTo]⟩
    rcases mem_append.mp hq with hq | hq
    · exact h.channel q hq
    rw [mem_singleton.mp hq]
    exact hev p rfl
  | sendControl cmd =>
    unfold Worker.step
    dsimp only
    split
    · exact ⟨h, forall_mem_nil _⟩
    exact ⟨⟨⟨h.channel, h.hand⟩, h.encoder⟩, forall_mem_nil _⟩
  | requestFlushDue drain => exact ⟨⟨⟨h.channel, h.hand⟩, h.encoder⟩, forall_mem_nil _⟩
  | work env => exact h.work

theorem work_reply (h : .reply cmd ∈ (w.work rs env).2) :
    w.nextCommand = some cmd ∧ ∃ rest, w.work rs env = w.command rs env cmd rest := by
  generalize hr : w.work rs env = r at h
  have hw := work_spec rs env w
  rw [hr] at hw
  cases hw with
  | @command cmd' rest hnext _ =>
    rcases WorkerState.handleControl_output rs env cmd' h with ⟨_, ho⟩ | ho
    · cases ho
    cases ho
    exact ⟨hnext, rest, rfl⟩
  | move _ _ _ _ => cases h
  | flush _ =>
    obtain ⟨x, _, hx⟩ := WorkerState.dispatchAll_dest h
    cases hx
  | receive _ _ => cases h
  | push _ => cases WorkerState.handlePush_output h
  | stopped _ => cases h

theorem clear_of_removed (hidle : w.RemovesIdle ev) (h : .reply (.removePeer d) ∈ (w.step rs ev).2) :
    Clear d (w.step rs ev).1 := by
  cases ev with
  | tryPush p =>
    unfold Worker.step at h
    dsimp only at h
    split at h
    · cases mem_singleton.mp h
    cases mem_singleton.mp h
  | sendControl cmd =>
    unfold Worker.step at h
    dsimp only at h
    split at h
    · cases h
    cases h
  | requestFlushDue drain => cases h
  | work env =>
    obtain ⟨hnext, rest, hwork⟩ := work_reply h
    have hd := hidle env rfl d hnext
    show Clear d (w.work rs env).1
    rw [hwork]
    refine ⟨⟨hd.channel, hd.hand⟩, ?_⟩
    exact (HashMap.lookup_erase_eq w.st.encoders d d).trans (if_pos rfl)

/-- In every run in which peers are only removed when no packet for them is on its way, a removed peer stays
  removed: until the next push for it, the worker holds no encoder for it and emits nothing for it. -/
theorem removal_final (rs : Codec γ UInt8) (tuning : FecTxTuning) (evs : List Event)
    (hidle : Each (step rs) (start tuning) evs RemovesIdle) {d : SocketAddr} {i j : Nat} (hij : i < j)
    (hreply : .reply (.removePeer d) ∈ emitAt (step rs) (start tuning) evs i)
    (hpush : ∀ k p, i < k → k < j → evs[k]? = some (.tryPush p) → p.dest ≠ d) :
    (stateAt (step rs) (start tuning) evs j).st.encoders.lookup d = none ∧ ∀ k, i < k → k < j → ∀ o ∈
    emitAt (step rs) (start tuning) evs k, o.offerTo ≠ some d := by
  obtain ⟨ev, hev, hreply⟩ := emitAt_mem _ _ _ hreply
  have hclear : ∀ k, i < k → k ≤ j → Clear d (stateAt (step rs) (start tuning) evs k) := by
    intro k hik
    induction k with
    | zero => omega
    | succ k ih =>
      intro hkj
      rcases Nat.lt_or_ge i k with h | h
      · cases hk : evs[k]? with
        | none =>
          rw [Machine.stateAt_succ_of_none _ _ _ hk]
          exact ih h (by omega)
        | some ev' =>
          rw [stateAt_succ _ _ _ hk]
          exact ((ih h (by omega)).step fun p hp => hpush k p h (by omega) (hp ▸ hk)).1
      obtain rfl : i = k := by omega
      rw [stateAt_succ _ _ _ hev]
      exact clear_of_removed (hidle i ev hev) hreply
  refine ⟨(hclear j hij (Nat.le_refl j)).encoder, fun k hik hkj o ho => ?_⟩
  obtain ⟨ev', hev', ho⟩ := emitAt_mem _ _ _ ho
  exact ((hclear k hik (by omega)).step fun p hp => hpush k p hik hkj (hp ▸ hev')).2 o ho

end

def somePeer : SocketAddr := .v4 1 9000

def otherPeer : SocketAddr := .v4 2 9000

def pushTo (dest : SocketAddr) : Event := .tryPush ⟨dest, [1], 4, 2, none, none, none⟩

def knobs : FecTxTuning := ⟨512, 2, 1⟩

def workNow : Event := .work ⟨0, 7, fun _ => 0, 100, fun _ => true, .asStored⟩

def removedIdle : List Event := [.sendControl (.removePeer somePeer), workNow, pushTo otherPeer, workNow]

/-- A peer is removed when the channel is empty, and another peer goes on. -/
theorem removedIdle_final : (stateAt (step blankCodec) (start knobs) removedIdle 4).st.encoders.lookup
    somePeer = none ∧ ∀ k, 1 < k → k < 4 → ∀ o ∈ emitAt (step blankCodec) (start knobs) removedIdle k,
    o.offerTo ≠ some somePeer := by
  refine removal_final blankCodec knobs removedIdle ?_ (by decide) (by decide +kernel) ?_
  · refine each_cons.mpr ⟨nofun, each_cons.mpr ⟨fun _ _ _ _ => ⟨nofun, nofun⟩,
      each_cons.mpr ⟨nofun, each_cons.mpr ⟨nofun, nofun⟩⟩⟩⟩
  intro k p hlo hhi hk
  have : k = 2 ∨ k = 3 := by omega
  rcases this with rfl | rfl
  · cases hk
    decide
  cases hk

/-- A packet is accepted, its peer removed, and then the packet handled. -/
def pushedBeforeRemoval : List Event :=
  [pushTo somePeer, .sendControl (.removePeer somePeer), workNow, workNow, workNow, workNow, workNow]

theorem removed_peer_returns : .reply (.removePeer somePeer) ∈ emitAt (step blankCodec) (start knobs)
    pushedBeforeRemoval 2 ∧
    ((stateAt (step blankCodec) (start knobs) pushedBeforeRemoval 7).st.encoders.lookup somePeer).isSome ∧
    .enqueueNormal somePeer [[1]] .passthrough ∈ emitAt (step blankCodec) (start knobs) pushedBeforeRemoval
    6 := by
  decide +kernel

end Worker

end ConnectUnit.FecTxWorker
