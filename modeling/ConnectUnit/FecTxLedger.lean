import ConnectUnit.FecTxWorkerSound

/-!
# The packets of the FEC transmit worker

Every packet that the worker has accepted is in its channel, in its hand, in an
encoder, or has left it: as it came, or in the data shards of a group. A stop
flushes the encoders only.
-/

open Machine (Each each_cons run trace)
open List (Forall₂ append_assoc append_nil filter_append filter_cons_of_pos filter_nil flatten_singleton mem_singleton)

namespace ConnectUnit.FecTxWorker

open Fec

variable {L : Nat → Nat → Prop} {size : Nat} {out : FecOutput} {dest : SocketAddr} {outs : List Output}
variable {held' : List Bytes} {cmd : FecTxControl}

/-! ## What an output carries -/

def CarriesOut : FecOutput → List Bytes → Prop
  | .buffered, ps => ps = []
  | .passthrough pkts, ps => ps = pkts
  | .encoded frames, ps => ∃ size, Stores size frames ps

def Carries : Output → List Bytes → Prop
  | .batch _ frames _, ps => ∃ size, Stores size frames ps
  | .enqueueNormal _ frames .batchFallback, ps => ∃ size, Stores size frames ps
  | .enqueueNormal _ pkts _, ps => ps = pkts
  | _, ps => ps = []

section
variable {γ : Type} {rs : Codec γ UInt8} {st : WorkerState γ} {env : Env} {d : SocketAddr}
variable {e : FecEncoder γ}

theorem carriesOut_of_outcome {id : UInt32} {held buffered : List Bytes}
    (h : Outcome rs L size id held out buffered) :
    ∃ ps, CarriesOut out ps ∧ held.Perm (ps ++ buffered) := by
  cases h with
  | kept => exact ⟨[], rfl, .refl _⟩
  | released =>
    refine ⟨held, rfl, ?_⟩
    rw [append_nil]
  | @grouped g _ hp hc _ =>
    refine ⟨g.packets, ⟨size, hc.stores⟩, ?_⟩
    rw [hp, append_nil]

theorem carriesOut_of_emptied {id : UInt32} {held : List Bytes}
    (h : Outcome rs L size id held out []) : CarriesOut out held := by
  cases h with
  | kept => rfl
  | released => rfl
  | @grouped g _ hp hc _ =>
    rw [← hp]
    exact ⟨size, hc.stores⟩

theorem dispatchOutput_carries (st : WorkerState γ) (dest : SocketAddr) {ps : List Bytes}
    (h : CarriesOut out ps) (drain accepted : Bool) :
    ∃ carried, Forall₂ Carries (st.dispatchOutput dest out drain accepted) carried ∧ carried.flatten = ps := by
  unfold WorkerState.dispatchOutput
  cases out with
  | buffered => exact ⟨[], .nil, h.symm⟩
  | encoded frames =>
    dsimp only
    split
    · exact ⟨[ps], .cons h .nil, flatten_singleton⟩
    exact ⟨[ps], .cons h .nil, flatten_singleton⟩
  | passthrough pkts =>
    refine ⟨[ps], .cons ?_ .nil, flatten_singleton⟩
    cases drain
    · exact h
    exact h

def Output.isTo (d : SocketAddr) (o : Output) : Bool := o.offerTo = some d

theorem filter_isTo_dispatchOutput {drain accepted : Bool} :
    (st.dispatchOutput dest out drain accepted).filter (Output.isTo d) = if dest = d then st.dispatchOutput dest out
    drain accepted else [] := by
  split
  · rename_i hd
    refine List.filter_eq_self.mpr fun o ho => ?_
    unfold Output.isTo
    rw [WorkerState.dispatchOutput_dest ho, hd, decide_eq_true rfl]
  rename_i hd
  refine List.filter_eq_nil_iff.mpr fun o ho hto => hd ?_
  unfold Output.isTo at hto
  rw [WorkerState.dispatchOutput_dest ho] at hto
  exact Option.some.inj (of_decide_eq_true hto)

theorem dispatchAll_carries (st : WorkerState γ) (env : Env) (drain : Bool) (pending : List (SocketAddr × FecOutput))
    (k : Nat) {carried : List (List Bytes)}
    (h : Forall₂ CarriesOut ((pending.filter fun x => x.1 = d).map (·.2)) carried) : ∃ carried', Forall₂
    Carries ((st.dispatchAll env drain pending k).filter (Output.isTo d)) carried' ∧ carried'.flatten =
    carried.flatten := by
  induction pending generalizing k carried with
  | nil =>
    cases h
    exact ⟨[], .nil, rfl⟩
  | cons x pending ih =>
    obtain ⟨dest, out⟩ := x
    unfold WorkerState.dispatchAll
    rw [filter_append, filter_isTo_dispatchOutput]
    by_cases hd : dest = d
    · rw [filter_cons_of_pos (by simpa using hd), List.map_cons] at h
      cases h with
      | @cons _ ps _ rest hout hrest =>
        obtain ⟨carried', hc, hflat⟩ := ih (k + 1) hrest
        obtain ⟨first, hf, hps⟩ := dispatchOutput_carries st dest hout drain (env.accepts k)
        rw [if_pos hd]
        refine ⟨first ++ carried', List.rel_append hf hc, ?_⟩
        rw [List.flatten_append, List.flatten_cons, hps, hflat]
    rw [List.filter_cons_of_neg (by simpa using hd)] at h
    rw [if_neg hd]
    exact ih (k + 1) h

def Emits (d : SocketAddr) (held : List Bytes) (outs : List Output) (held' : List Bytes) : Prop :=
  ∃ carried, Forall₂ Carries (outs.filter (Output.isTo d)) carried ∧ held.Perm (carried.flatten ++ held')

theorem emits_nil {held : List Bytes} : Emits d held [] held := ⟨[], .nil, .refl _⟩

theorem Emits.of_quiet {held : List Bytes} (h : ∀ o ∈ outs, o.offerTo ≠ some d) : Emits d held outs held := by
  refine ⟨[], ?_, .refl _⟩
  have hnil : outs.filter (Output.isTo d) = [] :=
    List.filter_eq_nil_iff.mpr fun o ho hto => h o ho (of_decide_eq_true hto)
  rw [hnil]
  exact .nil

theorem Emits.trans {held mid more : List Bytes} {outs' : List Output} (h : Emits d held outs mid)
    (h' : Emits d (mid ++ more) outs' held') : Emits d (held ++ more) (outs ++ outs') held' := by
  obtain ⟨carried, hc, hp⟩ := h
  obtain ⟨carried', hc', hp'⟩ := h'
  refine ⟨carried ++ carried', ?_, ?_⟩
  · rw [filter_append]
    exact List.rel_append hc hc'
  rw [List.flatten_append, append_assoc]
  refine (hp.append_right more).trans ?_
  rw [append_assoc]
  exact hp'.append_left _

/-! ## Encoders -/

def WorkerState.held (st : WorkerState γ) (d : SocketAddr) : List Bytes :=
  ((st.encoders.lookup d).map originals).getD []

def WorkerState.Valid (rs : Codec γ UInt8) (st : WorkerState γ) : Prop :=
  ∀ d e, st.encoders.lookup d = some e → Fec.Valid rs e

/-- The codec works for every group that an encoder may form. -/
def Works (rs : Codec γ UInt8) : Prop := ∀ d p, 0 < d → 0 < p → d + p ≤ 64 → rs.Encodes d p

theorem Works.usable (h : Works rs) (d p : Nat) : Usable rs (fun _ _ => True) d p :=
  fun d' p' hd _ hp _ hle => ⟨h d' p' hd hp hle, trivial⟩

theorem flush_carries (hrs : Works rs) (h : Fec.Valid rs e) (budget : QueueBudget) (now : Instant)
    : Fec.Valid rs (e.flush rs budget now).1 ∧ originals (e.flush rs budget now).1 = [] ∧ CarriesOut
    (e.flush rs budget now).2 (originals e) := by
  obtain ⟨hh, hempty⟩ := h.flush (hrs.usable _ _) budget now
  have hout := hh.outcome
  rw [hempty] at hout
  exact ⟨valid_of_empty hh.stocked hempty, hempty, carriesOut_of_emptied hout⟩

theorem flushOne_carries (env : Env) (hrs : Works rs) (h : Fec.Valid rs e) (drain : Bool)
    (dest : SocketAddr) : Fec.Valid rs (WorkerState.flushOne rs env drain dest e).1 ∧ originals
    (WorkerState.flushOne rs env drain dest e).1 = [] ∧ CarriesOut (WorkerState.flushOne rs env drain dest e).2
    (originals e) := by
  unfold WorkerState.flushOne
  split
  · obtain ⟨hh, hempty⟩ : Handled rs (fun _ _ => True) e _ _ ∧ _ := h.toStocked.flushPassthrough
    have hout := hh.outcome
    rw [hempty] at hout
    exact ⟨valid_of_empty hh.stocked hempty, hempty, carriesOut_of_emptied hout⟩
  · exact flush_carries hrs h _ _

theorem filter_pending {l : List (Sigma fun _ : SocketAddr => FecEncoder γ)} {m : HashMap SocketAddr (FecEncoder γ)}
    (hl : l.Perm m.entries) (d : SocketAddr) (f : SocketAddr → FecEncoder γ → FecOutput) :
    ((l.map fun e => (e.1, f e.1 e.2)).filter fun x => x.1 = d).map (·.2) = ((m.lookup d).map (f d)).toList := by
  rw [List.filter_map, List.map_map]
  have hkey := HashMap.filter_key_eq m hl d
  have hcomp :
      ((fun x : SocketAddr × FecOutput => decide (x.1 = d)) ∘ fun e : Sigma fun _ : SocketAddr => FecEncoder γ =>
      (e.1, f e.1 e.2)) = fun e => decide (e.1 = d) := rfl
  rw [hcomp, hkey]
  cases m.lookup d <;> rfl

section
variable (hrs : Works rs) (h : st.Valid rs)
include hrs h

theorem flushAll_emits : Emits d (st.held d) (st.flushAll rs env).2 [] := by
  have hpending := filter_pending (env.order.arrange_perm st.encoders.entries) d
    fun dest e => (e.flush rs (WorkerState.budgetFor env dest) env.now).2
  have hcarry : Forall₂ CarriesOut
      ((st.encoders.lookup d).map fun e => (e.flush rs (WorkerState.budgetFor env d) env.now).2).toList
      ((st.encoders.lookup d).map originals).toList := by
    cases hd : st.encoders.lookup d with
    | none => exact .nil
    | some e => exact .cons (flush_carries hrs (h d e hd) _ _).2.2 .nil
  rw [← hpending] at hcarry
  obtain ⟨carried, hc, hflat⟩ := dispatchAll_carries { st with encoders := ∅ } env false _ 0 hcarry
  refine ⟨carried, hc, ?_⟩
  rw [append_nil, hflat]
  unfold WorkerState.held
  cases st.encoders.lookup d with
  | none => exact .refl _
  | some e => exact .of_eq flatten_singleton.symm

theorem flushDue_emits {drain : Bool} :
    Emits d (st.held d) (st.flushDue rs env drain).2 ((st.flushDue rs env drain).1.held d) := by
  have hl : ((env.order.arrange st.encoders.entries).filter fun e => e.2.needsFlush env.now).Perm
      (st.encoders.retain fun _ e => e.needsFlush env.now).entries := (env.order.arrange_perm _).filter _
  have hpending := filter_pending hl d fun dest e => (WorkerState.flushOne rs env drain dest e).2
  rw [HashMap.lookup_retain] at hpending
  -- What the encoder of the peer releases, and what it keeps if it is not due.
  obtain ⟨released, hcarry, hperm⟩ : ∃ released, Forall₂ CarriesOut
      (((st.encoders.lookup d).filter fun e => e.needsFlush env.now).map fun e =>
        (WorkerState.flushOne rs env drain d e).2).toList released ∧
      (st.held d).Perm (released.flatten ++ (st.flushDue rs env drain).1.held d) := by
    unfold WorkerState.held
    rw [WorkerState.flushDue_lookup]
    cases hd : st.encoders.lookup d with
    | none => exact ⟨[], .nil, .refl _⟩
    | some e =>
      cases hneeds : e.needsFlush env.now with
      | true =>
        obtain ⟨_, hempty, hout⟩ := flushOne_carries env hrs (h d e hd) drain d
        refine ⟨[originals e], ?_, ?_⟩
        · rw [Option.filter_some, hneeds]
          exact .cons hout .nil
        simp [hneeds, hempty]
      | false =>
        refine ⟨[], ?_, ?_⟩
        · rw [Option.filter_some, hneeds]
          exact .nil
        simp [hneeds]
  rw [← hpending] at hcarry
  obtain ⟨carried, hc, hflat⟩ := dispatchAll_carries (st.flushDue rs env drain).1 env drain _ 0 hcarry
  refine ⟨carried, hc, ?_⟩
  rw [hflat]
  exact hperm

theorem flushDue_valid {drain : Bool} : (st.flushDue rs env drain).1.Valid rs := by
  intro d e he
  rw [WorkerState.flushDue_lookup] at he
  obtain ⟨e', he', rfl⟩ := Option.map_eq_some_iff.mp he
  split
  · exact (flushOne_carries env hrs (h d e' he') drain d).1
  exact h d e' he'

end

/-! ## Pushes -/

theorem applyTuning_valid (h : Fec.Valid rs e) (std agg : Nat)
    (hsize : e.shardPayloadSize = size ∨ originals e = []) :
    Fec.Valid rs (e.applyTuning size std agg) ∧ originals (e.applyTuning size std agg) = originals e := by
  refine ⟨⟨⟨fun x hx => ?_, h.cache⟩, h.fewer⟩, rfl⟩
  rcases hsize with rfl | hempty
  · exact h.shards x hx
  replace hx : x ∈ e.shardBuf := hx
  rw [List.map_eq_nil_iff.mp hempty] at hx
  cases hx

theorem tunedEncoder_spec (env : Env) (hrs : Works rs) (h : st.Valid rs) (p : FecTxData) : Fec.Valid rs
    (st.tunedEncoder rs env p).1 ∧ ∃ ps, CarriesOut (st.tunedEncoder rs env p).2 ps ∧ (st.held p.dest).Perm
    (ps ++ originals (st.tunedEncoder rs env p).1) := by
  have hstart :
      ∃ e, (st.encoders.lookup p.dest).getD (.withFlush env.salt p.ds p.ps st.tuning.shard st.tuning.flushStd
      st.tuning.flushAgg) = e ∧ Fec.Valid rs e ∧ originals e = st.held p.dest := by
    unfold WorkerState.held
    cases hd : st.encoders.lookup p.dest with
    | none => exact ⟨_, rfl, withFlush_valid rs _ _ _ _ _ _, rfl⟩
    | some e => exact ⟨e, rfl, h p.dest e hd, rfl⟩
  obtain ⟨e, he, hvalid, horiginals⟩ := hstart
  unfold WorkerState.tunedEncoder
  dsimp only
  rw [he, ← horiginals]
  split
  · obtain ⟨hv, hempty, hout⟩ := flush_carries hrs hvalid p.queueBudget env.now
    obtain ⟨hv', ho⟩ := applyTuning_valid hv st.tuning.flushStd st.tuning.flushAgg (.inr hempty)
    refine ⟨hv', originals e, hout, ?_⟩
    rw [ho, hempty, append_nil]
  rename_i hsize
  obtain ⟨hv', ho⟩ := applyTuning_valid hvalid st.tuning.flushStd st.tuning.flushAgg (.inl (not_not.mp hsize))
  refine ⟨hv', [], rfl, ?_⟩
  rw [ho]
  exact .refl _

theorem pushOutput_carries (hrs : Works rs) (h : Fec.Valid rs e) (pkt : Bytes)
    (budget : QueueBudget) (now : Instant) : Fec.Valid rs (e.pushOutput rs pkt budget now).1 ∧ ∃ ps, CarriesOut
    (e.pushOutput rs pkt budget now).2 ps ∧ (originals e ++ [pkt]).Perm
    (ps ++ originals (e.pushOutput rs pkt budget now).1) := by
  obtain ⟨hout, hvalid⟩ := h.pushOutput (hrs.usable _ _) pkt budget now
  refine ⟨hvalid, ?_⟩
  rcases hout with hout | hout
  · rw [hout]
    exact ⟨[pkt], rfl, List.perm_append_comm⟩
  exact carriesOut_of_outcome hout.outcome

theorem updateRatio_carries (hrs : Works rs) (h : Fec.Valid rs e) (ds ps : UInt8)
    (budget : QueueBudget) (now : Instant) : Fec.Valid rs (e.updateRatioWithFlush rs ds ps budget now).1 ∧ ∃ pkts,
    CarriesOut (e.updateRatioWithFlush rs ds ps budget now).2 pkts ∧ (originals e).Perm
    (pkts ++ originals (e.updateRatioWithFlush rs ds ps budget now).1) := by
  obtain ⟨hout, hvalid, _⟩ := h.updateRatioWithFlush (hrs.usable _ _) ds ps budget now
  exact ⟨hvalid, carriesOut_of_outcome hout⟩

theorem encodePush_emits (st : WorkerState γ) (hrs : Works rs) (h : st.Valid rs) (env : Env) (p : FecTxData) :
    (st.encodePush rs env p).1.Valid rs ∧ Emits p.dest (st.held p.dest ++ [p.pkt]) (st.encodePush rs env p).2
    ((st.encodePush rs env p).1.held p.dest) := by
  obtain ⟨hv₁, ps₁, hc₁, hp₁⟩ := tunedEncoder_spec env hrs h p
  obtain ⟨hv₂, ps₂, hc₂, hp₂⟩ := updateRatio_carries hrs hv₁ p.ds p.ps p.queueBudget env.now
  obtain ⟨hv₃, ps₃, hc₃, hp₃⟩ := pushOutput_carries hrs hv₂ p.pkt p.queueBudget env.now
  unfold WorkerState.encodePush
  dsimp only
  generalize st.tunedEncoder rs env p = size at *
  generalize size.1.updateRatioWithFlush rs p.ds p.ps p.queueBudget env.now = ratio at *
  generalize ratio.1.pushOutput rs p.pkt p.queueBudget env.now = out at *
  have hinsert := HashMap.lookup_insert_eq st.encoders p.dest
  constructor
  · intro d e he
    replace he := (hinsert d out.1).symm.trans he
    split at he
    · cases he
      exact hv₃
    exact h d e he
  have hall : Forall₂ CarriesOut
      (([(p.dest, size.2), (p.dest, ratio.2), (p.dest, out.2)].filter fun x => x.1 = p.dest).map (·.2))
        [ps₁, ps₂, ps₃] := by
    simp only [filter_cons_of_pos, decide_true, filter_nil]
    exact .cons hc₁ (.cons hc₂ (.cons hc₃ .nil))
  obtain ⟨carried, hc, hflat⟩ :=
    dispatchAll_carries { st with encoders := st.encoders.insert p.dest out.1 } env false _ 0 hall
  refine ⟨carried, hc, ?_⟩
  have hnew : WorkerState.held { st with encoders := st.encoders.insert p.dest out.1 } p.dest = originals out.1 := by
    unfold WorkerState.held
    dsimp only
    rw [hinsert, if_pos rfl]
    rfl
  rw [hflat, hnew]
  calc (st.held p.dest ++ [p.pkt]).Perm (ps₁ ++ (originals size.1 ++ [p.pkt])) := by
        rw [← append_assoc]
        exact hp₁.append_right _
    _ |>.Perm (ps₁ ++ (ps₂ ++ (originals ratio.1 ++ [p.pkt]))) := by
        rw [← append_assoc ps₂]
        exact (hp₂.append_right _).append_left _
    _ |>.Perm (ps₁ ++ (ps₂ ++ (ps₃ ++ originals out.1))) := (hp₃.append_left _).append_left _
    _ |>.Perm ([ps₁, ps₂, ps₃].flatten ++ originals out.1) := by simp

theorem handlePush_emits (hrs : Works rs) (h : st.Valid rs) (env : Env) (p : FecTxData) :
    (st.handlePush rs env p).1.Valid rs ∧ Emits p.dest (st.held p.dest ++ [p.pkt]) (st.handlePush rs env p).2
    ((st.handlePush rs env p).1.held p.dest) := by
  unfold WorkerState.handlePush
  dsimp only
  split
  · refine ⟨h, [[p.pkt]], ?_, List.perm_append_comm⟩
    have hto : Output.isTo p.dest (.enqueueNormal p.dest [p.pkt] .passthrough) = true := decide_eq_true rfl
    rw [filter_cons_of_pos hto]
    exact .cons rfl .nil
  · exact encodePush_emits { st with hints := st.hints.insert p.dest (p.rttHint, p.qdHint) } hrs h env p

/-! ## Commands -/

theorem Emits.frame {held : List Bytes} (h : Emits d held outs held') (rest : List Bytes) :
    Emits d (held ++ rest) outs (held' ++ rest) := by
  obtain ⟨carried, hc, hp⟩ := h
  refine ⟨carried, hc, ?_⟩
  rw [← append_assoc]
  exact hp.append_right rest

theorem Emits.reply {held : List Bytes} (h : Emits d held outs held')
    : Emits d held (outs ++ [.reply cmd]) held' := by
  obtain ⟨carried, hc, hp⟩ := h
  refine ⟨carried, ?_, hp⟩
  rw [filter_append, List.filter_cons_of_neg (by simp [Output.isTo, Output.offerTo]), filter_nil, append_nil]
  exact hc

theorem handleControl_emits (hrs : Works rs) (h : st.Valid rs) (env : Env)
    (hcmd : ∀ dest, cmd ≠ .removePeer dest) (d : SocketAddr) : (st.handleControl rs env cmd).1.Valid rs ∧ Emits d
    (st.held d) (st.handleControl rs env cmd).2.1 ((st.handleControl rs env cmd).1.held d) := by
  cases cmd with
  | flushAll => exact ⟨nofun, (flushAll_emits hrs h).reply⟩
  | retune t => exact ⟨nofun, (flushAll_emits hrs h).reply⟩
  | setEncodeEnabled enabled => exact ⟨h, emits_nil⟩
  | removePeer dest => exact absurd rfl (hcmd dest)
  | resetSession => exact ⟨nofun, (flushAll_emits hrs h).reply⟩
  | stop => exact ⟨nofun, (flushAll_emits hrs h).reply⟩

end

/-! ## Runs -/

namespace Worker

section
variable {γ : Type} {rs : Codec γ UInt8} {w : Worker γ} {d : SocketAddr}

def inHand (d : SocketAddr) : Phase → List Bytes
  | .received p => if p.dest = d then [p.pkt] else []
  | _ => []

def inChannel (d : SocketAddr) (data : List FecTxData) : List Bytes := (data.filter (·.dest = d)).map (·.pkt)

def pendingFor (w : Worker γ) (d : SocketAddr) : List Bytes := w.st.held d ++ (inHand d w.phase ++ inChannel d w.data)

def acceptedFor (d : SocketAddr) : Output → List Bytes
  | .accepted p => if p.dest = d then [p.pkt] else []
  | _ => []

theorem acceptedFor_of_offer {o : Output} (h : o.offerTo = some dest) : acceptedFor d o = [] := by
  cases o with
  | accepted p => cases h
  | refused p => rfl
  | batch _ _ _ => rfl
  | enqueueNormal _ _ _ => rfl
  | reply _ => rfl

/-- Commands that the loss of packets is not the purpose of, and a stop only when no packet is on its way. -/
structure StopsDrained (w : Worker γ) (ev : Event) : Prop where
  keeps : ∀ dest, ev ≠ .sendControl (.removePeer dest)
  drained : ∀ env, ev = .work env → w.nextCommand = some .stop → w.data = [] ∧ ∀ p, w.phase ≠ .received p

structure Kept (rs : Codec γ UInt8) (w : Worker γ) : Prop where
  valid : w.st.Valid rs
  keeps : ∀ dest, .removePeer dest ∉ w.control
  empty : w.phase = .stopped → ∀ d, w.pendingFor d = []

theorem Kept.command (hrs : Works rs) (h : Kept rs w) {env : Env} {rest : List FecTxControl}
    (hnext : w.nextCommand = some cmd) (hcontrol : w.control = cmd :: rest)
    (hdrained : w.nextCommand = some .stop → w.data = [] ∧ ∀ p, w.phase ≠ .received p) : Kept rs
    (w.command rs env cmd rest).1 ∧ ∀ d, Emits d (w.pendingFor d) (w.command rs env cmd rest).2
    ((w.command rs env cmd rest).1.pendingFor d) := by
  have hkeeps : ∀ dest, cmd ≠ .removePeer dest := by
    intro dest hc
    exact h.keeps dest (hcontrol ▸ hc ▸ List.mem_cons_self)
  have hrest : ∀ dest, .removePeer dest ∉ rest := fun dest hm => h.keeps dest (hcontrol ▸ List.mem_cons_of_mem cmd hm)
  have hemits := handleControl_emits hrs h.valid env hkeeps
  by_cases hstop : cmd = .stop
  · subst hstop
    obtain ⟨hdata, hphase⟩ := hdrained hnext
    have hhand : ∀ d, inHand d w.phase = [] := by
      intro d
      unfold inHand
      split
      · rename_i p hp
        exact absurd hp (hphase p)
      rfl
    have hempty : ∀ d, (w.command rs env .stop rest).1.pendingFor d = [] := by
      intro d
      unfold pendingFor inChannel Worker.command
      dsimp only
      rw [hdata]
      rfl
    refine ⟨⟨nofun, hrest, fun _ => hempty⟩, fun d => ?_⟩
    rw [hempty]
    unfold pendingFor inChannel
    rw [hhand, hdata, filter_nil, List.map_nil, append_nil, append_nil]
    exact (hemits d).2
  · have hgoes : (w.st.handleControl rs env cmd).2.2 = false := by
      cases cmd with
      | stop => exact absurd rfl hstop
      | _ => rfl
    have hphase : (w.command rs env cmd rest).1.phase = w.phase := by
      unfold Worker.command
      dsimp only
      rw [hgoes]
      rfl
    refine ⟨⟨(hemits (.v4 0 0)).1, hrest, fun hs => ?_⟩, fun d => ?_⟩
    · rw [hphase] at hs
      unfold nextCommand at hnext
      rw [hs] at hnext
      cases hnext
    unfold pendingFor
    rw [hphase]
    exact (hemits d).2.frame _

theorem inChannel_cons {p : FecTxData} {data : List FecTxData} :
    inChannel d (p :: data) = inHand d (.received p) ++ inChannel d data := by
  unfold inChannel inHand
  dsimp only
  split
  · rename_i hp
    rw [filter_cons_of_pos (by simpa using hp)]
    rfl
  rename_i hp
  rw [List.filter_cons_of_neg (by simpa using hp)]
  rfl

theorem inHand_of_not {phase : Phase} (h : ∀ p, phase ≠ .received p) : inHand d phase = [] := by
  unfold inHand
  split
  · rename_i p
    exact absurd rfl (h p)
  rfl

theorem Kept.work (hrs : Works rs) (h : Kept rs w) (env : Env)
    (hdrained : w.nextCommand = some .stop → w.data = [] ∧ ∀ p, w.phase ≠ .received p) :
    Kept rs (w.work rs env).1 ∧ ∀ d, Emits d (w.pendingFor d) (w.work rs env).2 ((w.work rs env).1.pendingFor d) := by
  have hw := work_spec rs env w
  generalize w.work rs env = r at hw ⊢
  cases hw with
  | command hnext hcontrol => exact h.command hrs hnext hcontrol hdrained
  | move hlive hhand _ hhand' =>
    refine ⟨⟨h.valid, h.keeps, fun hs => absurd hs hlive⟩, fun d => ?_⟩
    unfold pendingFor
    dsimp only
    rw [inHand_of_not hhand, inHand_of_not hhand']
    exact emits_nil
  | flush hphase =>
    refine ⟨⟨flushDue_valid hrs h.valid, h.keeps, nofun⟩, fun d => ?_⟩
    unfold pendingFor
    dsimp only
    rw [hphase]
    exact (flushDue_emits hrs h.valid).frame _
  | receive hphase hdata =>
    refine ⟨⟨h.valid, h.keeps, nofun⟩, fun d => ?_⟩
    unfold pendingFor
    dsimp only
    rw [hphase, hdata, inChannel_cons]
    exact emits_nil
  | @push p hphase =>
    obtain ⟨hvalid, hemits⟩ := handlePush_emits hrs h.valid env p
    refine ⟨⟨hvalid, h.keeps, nofun⟩, fun d => ?_⟩
    unfold pendingFor
    dsimp only
    rw [hphase]
    by_cases hd : p.dest = d
    · subst hd
      have := hemits.frame (inChannel p.dest w.data)
      rw [append_assoc] at this
      unfold inHand
      dsimp only
      rw [if_pos rfl]
      exact this
    unfold inHand WorkerState.held
    dsimp only
    rw [if_neg hd, WorkerState.handlePush_lookup hd]
    exact Emits.of_quiet fun o ho hto => hd (Option.some.inj ((WorkerState.handlePush_output ho).symm.trans hto))
  | stopped _ => exact ⟨h, fun d => emits_nil⟩

theorem work_accepts_nothing {env : Env} : (w.work rs env).2.flatMap (acceptedFor d) = [] := by
  have hw := work_spec rs env w
  generalize w.work rs env = r at hw ⊢
  refine List.flatMap_eq_nil_iff.mpr fun o ho => ?_
  cases hw with
  | @command cmd _ _ _ =>
    rcases WorkerState.handleControl_output rs env cmd ho with ⟨_, ho⟩ | rfl
    · exact acceptedFor_of_offer ho
    rfl
  | move _ _ _ _ => cases ho
  | flush _ =>
    obtain ⟨x, _, hx⟩ := WorkerState.dispatchAll_dest ho
    exact acceptedFor_of_offer hx
  | receive _ _ => cases ho
  | push _ => exact acceptedFor_of_offer (WorkerState.handlePush_output ho)
  | stopped _ => cases ho

theorem Kept.step (hrs : Works rs) (h : Kept rs w) (ev : Event) (hev : w.StopsDrained ev) : Kept rs (w.step rs ev).1 ∧
    ∀ d, Emits d (w.pendingFor d ++ (w.step rs ev).2.flatMap (acceptedFor d)) (w.step rs ev).2
    ((w.step rs ev).1.pendingFor d) := by
  have hsilent : ∀ d held, Emits d (held ++ ([] : List Output).flatMap (acceptedFor d)) [] held := by
    intro d held
    rw [List.flatMap_nil, append_nil]
    exact emits_nil
  cases ev with
  | tryPush p =>
    unfold Worker.step
    dsimp only
    split
    · refine ⟨h, fun d => ?_⟩
      rw [List.flatMap_singleton, show acceptedFor d (.refused p) = [] from rfl, append_nil]
      refine Emits.of_quiet fun o ho => ?_
      rw [mem_singleton.mp ho]
      nofun
    rename_i hroom
    refine ⟨⟨h.valid, h.keeps, fun hs => ?_⟩, fun d => ?_⟩
    · replace hs : w.phase = .stopped := hs
      unfold isStopped at hroom
      rw [hs] at hroom
      simp at hroom
    have hchannel : inChannel d (w.data ++ [p]) = inChannel d w.data ++ acceptedFor d (.accepted p) := by
      unfold inChannel
      rw [filter_append, List.map_append]
      exact congrArg _ ((inChannel_cons).trans (append_nil _))
    unfold pendingFor
    dsimp only
    rw [hchannel, List.flatMap_singleton, append_assoc, append_assoc]
    refine Emits.of_quiet fun o ho => ?_
    rw [mem_singleton.mp ho]
    nofun
  | sendControl cmd =>
    unfold Worker.step
    dsimp only
    split
    · exact ⟨h, fun d => hsilent d _⟩
    refine ⟨⟨h.valid, fun dest hm => ?_, h.empty⟩, fun d => hsilent d _⟩
    rcases List.mem_append.mp hm with hm | hm
    · exact h.keeps dest hm
    exact hev.keeps dest (congrArg Event.sendControl (mem_singleton.mp hm).symm)
  | requestFlushDue drain => exact ⟨⟨h.valid, h.keeps, h.empty⟩, fun d => hsilent d _⟩
  | work env =>
    obtain ⟨hkept, hemits⟩ := h.work hrs env (hev.drained env rfl)
    refine ⟨hkept, fun d => ?_⟩
    show Emits d (w.pendingFor d ++ (w.work rs env).2.flatMap (acceptedFor d)) (w.work rs env).2 _
    rw [work_accepts_nothing, append_nil]
    exact hemits d

/-- In every run that removes no peer and stops only when no packet is on its way, the outputs of a stopped worker
  carry exactly the packets that were accepted. -/
theorem stop_loses_nothing (hrs : Works rs) (tuning : FecTxTuning) (evs : List Event)
    (hevs : Each (step rs) (start tuning) evs StopsDrained)
    (hstop : (run (step rs) (start tuning) evs).phase = .stopped) (d : SocketAddr) :
    let outs := trace (step rs) (start tuning) evs
    ∃ carried, Forall₂ Carries (outs.filter (Output.isTo d)) carried ∧
      (outs.flatMap (acceptedFor d)).Perm carried.flatten := by
  have hrun : Kept rs (run (step rs) (start tuning) evs) ∧
      Emits d ((trace (step rs) (start tuning) evs).flatMap (acceptedFor d))
        (trace (step rs) (start tuning) evs) ((run (step rs) (start tuning) evs).pendingFor d) := by
    refine Machine.trace_invariant (I := fun w log => Kept rs w ∧
      Emits d (log.flatMap (acceptedFor d)) log (w.pendingFor d))
      ?_ ?_ hevs
    · intro w log ev hev h
      obtain ⟨hkept, hemits⟩ := h.1.step hrs ev hev
      rw [List.flatMap_append]
      exact ⟨hkept, h.2.trans (hemits d)⟩
    · exact ⟨⟨nofun, fun dest => List.not_mem_nil, nofun⟩, emits_nil⟩
  obtain ⟨hkept, carried, hc, hp⟩ := hrun
  rw [hkept.empty hstop d, append_nil] at hp
  exact ⟨carried, hc, hp⟩

end

def stoppedDrained : List Event := [pushTo somePeer, workNow, workNow, workNow, workNow, .sendControl .stop, workNow]

theorem stoppedDrained_loses_nothing :
    let outs := trace (step blankCodec) (start knobs) stoppedDrained
    outs.flatMap (acceptedFor somePeer) = [[1]] ∧
      ∃ carried, Forall₂ Carries (outs.filter (Output.isTo somePeer)) carried ∧
      (outs.flatMap (acceptedFor somePeer)).Perm carried.flatten := by
  refine ⟨by decide +kernel, ?_⟩
  refine stop_loses_nothing (fun d p _ _ _ => blankCodec_encodes d p) knobs stoppedDrained ?_ rfl somePeer
  have hidle : ∀ {w : Worker Unit}, w.nextCommand = none → StopsDrained w workNow :=
    fun hnext => ⟨nofun, fun _ _ hstop => (nomatch hnext.symm.trans hstop)⟩
  refine each_cons.mpr ⟨⟨nofun, nofun⟩, each_cons.mpr ⟨hidle rfl, each_cons.mpr ⟨hidle rfl,
    each_cons.mpr ⟨hidle rfl, each_cons.mpr ⟨hidle rfl, each_cons.mpr ⟨⟨nofun, nofun⟩,
      each_cons.mpr ⟨⟨nofun, fun _ _ _ => ⟨rfl, nofun⟩⟩, nofun⟩⟩⟩⟩⟩⟩⟩

/-- The packet is still in the channel, or in hand, when the worker is stopped: it is accepted and never offered. -/
theorem stop_loses_packet :
    let waiting := [pushTo somePeer, .sendControl .stop, workNow]
    let inHand := [pushTo somePeer, workNow, workNow, workNow, .sendControl .stop, workNow]
    let outs : List Output := [.accepted ⟨somePeer, [1], 4, 2, none, none, none⟩, .reply .stop]
    (run (step blankCodec) (start knobs) waiting).isStopped ∧ trace (step blankCodec) (start knobs) waiting = outs ∧
      (run (step blankCodec) (start knobs) inHand).isStopped ∧
      trace (step blankCodec) (start knobs) inHand = outs := by
  decide +kernel

end Worker

end ConnectUnit.FecTxWorker
