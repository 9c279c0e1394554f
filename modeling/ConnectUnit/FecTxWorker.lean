import ConnectUnit.Fec
import ConnectUnit.PeerState

/-!
# The FEC transmit worker

A thread of its own holds the encoders. Packets and commands reach it through two bounded channels; it hands groups to
the pacing queue and gives the other packets back as events.
-/

namespace ConnectUnit.Fec.FecEncoder

variable {γ : Type}

def applyTuning (e : FecEncoder γ) (shardPayloadSize flushStandard flushAggressive : Nat) : FecEncoder γ :=
  { e with
    shardPool := if shardPayloadSize ≠ e.shardPayloadSize then [] else e.shardPool
    shardPayloadSize := shardPayloadSize
    flushStandard := flushStandard
    flushAggressive := flushAggressive }

def needsFlush (e : FecEncoder γ) (now : Instant) : Bool :=
  (e.firstAt.map fun t => decide (e.groupFlushTimeout ≤ now - t)).getD false

end ConnectUnit.Fec.FecEncoder

namespace ConnectUnit.FecTxWorker

open Fec

def fecTxDataChannelCap : Nat := 1024
def fecTxControlChannelCap : Nat := 32

structure FecTxTuning where
  shard : Nat
  flushStd : Nat
  flushAgg : Nat
  deriving DecidableEq

abbrev Hints := Option ℚ × Option ℚ

structure FecTxData where
  dest : SocketAddr
  pkt : Bytes
  ds : UInt8
  ps : UInt8
  queueBudget : QueueBudget
  rttHint : Option ℚ
  qdHint : Option ℚ
  deriving DecidableEq

inductive FecTxControl where
  | flushAll
  | retune (tuning : FecTxTuning)
  | setEncodeEnabled (enabled : Bool)
  | removePeer (dest : SocketAddr)
  | resetSession
  | stop
  deriving DecidableEq

inductive NormalOfferKind where
  | passthrough | batchFallback | drainPassthrough
  deriving DecidableEq

/-- What leaves the two sides: the answer of `try_push`, the groups that pacing took, the events for the engine and
  the replies to commands. -/
inductive Output where
  | accepted (push : FecTxData)
  | refused (push : FecTxData)
  | batch (dest : SocketAddr) (pkts : List Bytes) (hints : Hints)
  | enqueueNormal (dest : SocketAddr) (pkts : List Bytes) (kind : NormalOfferKind)
  | reply (cmd : FecTxControl)
  deriving DecidableEq

/-- What a step of the worker reads from outside: the clock, a random salt, the lengths of the pacing queues, the
  answers of pacing to the groups of the step, and the order of the encoders. -/
structure Env where
  now : Instant
  salt : UInt32
  peerDataQueueLen : SocketAddr → Nat
  maxDataQueuePackets : Nat
  accepts : Nat → Bool
  order : IterOrder

structure WorkerState (γ : Type) extends FecTx (FecEncoder γ) where
  tuning : FecTxTuning
  encodeEnabled : Bool

namespace WorkerState

variable {γ : Type} (rs : Codec γ UInt8) (st : WorkerState γ) (env : Env)

def dispatchOutput (dest : SocketAddr) (out : FecOutput) (drain accepted : Bool) : List Output :=
  match out with
  | .buffered => []
  | .encoded pkts =>
    if accepted then [.batch dest pkts ((st.hints.lookup dest).getD (none, none))]
    else [.enqueueNormal dest pkts .batchFallback]
  | .passthrough pkts => [.enqueueNormal dest pkts (if drain then .drainPassthrough else .passthrough)]

def dispatchAll (drain : Bool) : List (SocketAddr × FecOutput) → Nat → List Output
  | [], _ => []
  | (dest, out) :: pending, k => st.dispatchOutput dest out drain (env.accepts k) ++ dispatchAll drain pending (k + 1)

def budgetFor (dest : SocketAddr) : QueueBudget := some (env.peerDataQueueLen dest, max env.maxDataQueuePackets 1)

def flushAll : WorkerState γ × List Output :=
  let pending := (env.order.arrange st.encoders.entries).map fun e =>
    (e.1, (e.2.flush rs (budgetFor env e.1) env.now).2)
  let st := { st with encoders := ∅ }
  (st, st.dispatchAll env false pending 0)

def flushOne (drain : Bool) (dest : SocketAddr) (e : FecEncoder γ) : FecEncoder γ × FecOutput :=
  if drain then e.flushPassthrough else e.flush rs (budgetFor env dest) env.now

def flushDue (drain : Bool) : WorkerState γ × List Output :=
  let due := (env.order.arrange st.encoders.entries).filter fun e => e.2.needsFlush env.now
  let pending := due.map fun e => (e.1, (flushOne rs env drain e.1 e.2).2)
  let st := { st with
    encoders := st.encoders.mapWithKey fun dest e =>
      if e.needsFlush env.now then (flushOne rs env drain dest e).1 else e }
  (st, st.dispatchAll env drain pending 0)

def tunedEncoder (p : FecTxData) : FecEncoder γ × FecOutput :=
  let t := st.tuning
  let e := (st.encoders.lookup p.dest).getD (.withFlush env.salt p.ds p.ps t.shard t.flushStd t.flushAgg)
  if e.shardPayloadSize ≠ t.shard then
    let r := e.flush rs p.queueBudget env.now
    (r.1.applyTuning t.shard t.flushStd t.flushAgg, r.2)
  else (e.applyTuning t.shard t.flushStd t.flushAgg, .buffered)

def encodePush (p : FecTxData) : WorkerState γ × List Output :=
  let size := st.tunedEncoder rs env p
  let ratio := size.1.updateRatioWithFlush rs p.ds p.ps p.queueBudget env.now
  let out := ratio.1.pushOutput rs p.pkt p.queueBudget env.now
  let st := { st with encoders := st.encoders.insert p.dest out.1 }
  (st, st.dispatchAll env false [(p.dest, size.2), (p.dest, ratio.2), (p.dest, out.2)] 0)

def handlePush (p : FecTxData) : WorkerState γ × List Output :=
  let st := { st with hints := st.hints.insert p.dest (p.rttHint, p.qdHint) }
  if !st.encodeEnabled then (st, [.enqueueNormal p.dest [p.pkt] .passthrough]) else st.encodePush rs env p

def handleControl : FecTxControl → WorkerState γ × List Output × Bool
  | .flushAll =>
    let r := st.flushAll rs env
    (r.1, r.2 ++ [.reply .flushAll], false)
  | .retune tuning =>
    let r := st.flushAll rs env
    ({ r.1 with tuning }, r.2 ++ [.reply (.retune tuning)], false)
  | .setEncodeEnabled enabled => ({ st with encodeEnabled := enabled }, [], false)
  | .removePeer dest =>
    ({ st with toFecTx := st.toFecTx.removePeer dest }, [.reply (.removePeer dest)], false)
  | .resetSession =>
    let r := st.flushAll rs env
    ({ r.1 with hints := ∅, encodeEnabled := true }, r.2 ++ [.reply .resetSession], false)
  | .stop =>
    let r := st.flushAll rs env
    (r.1, r.2 ++ [.reply .stop], true)

end WorkerState

/-! ## The loop of the thread -/

/-- Where the loop stands: at the commands, at the flush request, at the packets, with a packet in hand, or left. -/
inductive Phase where
  | control
  | flush
  | receive
  | received (p : FecTxData)
  | stopped

structure Worker (γ : Type) where
  data : List FecTxData
  control : List FecTxControl
  flushReq : Nat
  st : WorkerState γ
  phase : Phase

inductive Event where
  | tryPush (p : FecTxData)
  | sendControl (cmd : FecTxControl)
  | requestFlushDue (drain : Bool)
  | work (env : Env)

namespace Worker

variable {γ : Type} (rs : Codec γ UInt8)

def start (tuning : FecTxTuning) : Worker γ := ⟨[], [], 0, ⟨⟨∅, ∅⟩, tuning, true⟩, .control⟩

section
variable (w : Worker γ)

def command (env : Env) (cmd : FecTxControl) (rest : List FecTxControl) : Worker γ × List Output :=
  let r := w.st.handleControl rs env cmd
  ({ w with control := rest, st := r.1, phase := if r.2.2 then .stopped else w.phase }, r.2.1)

def work (env : Env) : Worker γ × List Output :=
  match w.phase with
  | .control =>
    match w.control with
    | cmd :: rest => w.command rs env cmd rest
    | [] => ({ w with phase := .flush }, [])
  | .flush =>
    if w.flushReq ≠ 0 then
      let r := w.st.flushDue rs env (w.flushReq = 2)
      ({ w with flushReq := 0, st := r.1, phase := .receive }, r.2)
    else ({ w with phase := .receive }, [])
  | .receive =>
    match w.data with
    | p :: rest => ({ w with data := rest, phase := .received p }, [])
    | [] => ({ w with phase := .control }, [])
  | .received p =>
    match w.control with
    -- Commands go before the packet, which is lost if one of them ends the loop.
    | cmd :: rest => w.command rs env cmd rest
    | [] =>
      let r := w.st.handlePush rs env p
      ({ w with st := r.1, phase := .control }, r.2)
  | .stopped => (w, [])

def isStopped : Bool :=
  match w.phase with
  | .stopped => true
  | _ => false

/-- A full channel or one without a receiver refuses; `send_control_spin` tries again until there is room. -/
def step : Event → Worker γ × List Output
  | .tryPush p =>
    if w.isStopped || fecTxDataChannelCap ≤ w.data.length then (w, [.refused p])
    else ({ w with data := w.data ++ [p] }, [.accepted p])
  | .sendControl cmd =>
    if w.isStopped || fecTxControlChannelCap ≤ w.control.length then (w, [])
    else ({ w with control := w.control ++ [cmd] }, [])
  | .requestFlushDue drain => ({ w with flushReq := max w.flushReq (if drain then 2 else 1) }, [])
  | .work env => w.work rs env

end

end Worker

end ConnectUnit.FecTxWorker
