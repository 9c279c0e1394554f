import Mathlib.Data.Rat.Floor
import ConnectUnit.Lib.ReplayWindow
import ConnectUnit.Net

/-!
# Replay tables and rate limits

The replay window of one peer, the table of replay windows of control
sources, and the token buckets that limit control traffic.
-/

namespace ConnectUnit

def dataReplayWindowBits : Nat := 128
def ctrlReplayMaxSources : Nat := 4096

abbrev DataReplayWindow := ReplayWindow dataReplayWindowBits

/-! ## Control replay table -/

structure CtrlReplayTable where
  sources : HashMap UInt64 (DataReplayWindow × Instant)
  maxSources : Nat

namespace CtrlReplayTable

def new : CtrlReplayTable := ⟨∅, ctrlReplayMaxSources⟩

variable (t : CtrlReplayTable)

def clear : CtrlReplayTable := { t with sources := ∅ }

def allows (srcKey : UInt64) (counter : Nat) : Bool :=
  match t.sources.lookup srcKey with
  | some (window, _) => window.allows counter
  | none => true

def isOldest (key : UInt64) : Bool :=
  match t.sources.lookup key with
  | some (_, lastSeen) => t.sources.entries.all fun e => lastSeen ≤ e.2.2
  | none => false

/-- The key that the walk for the oldest source ends with. Sources seen at the same instant are
taken in the order of the hash map; `tie` stands for that order. -/
def oldest (tie : Nat) : Option UInt64 :=
  let candidates := t.sources.keys.filter t.isOldest
  candidates[tie % candidates.length]?

def evictLoop (tie : Nat) : Nat → CtrlReplayTable → CtrlReplayTable
  | 0, t => t
  | n + 1, t =>
    if t.sources.size ≥ t.maxSources then
      match t.oldest tie with
      | some key => evictLoop tie n { t with sources := t.sources.erase key }
      | none => t
    else t

def evictOldestUntilRoom (tie : Nat) : CtrlReplayTable :=
  evictLoop tie (t.sources.size + 1) t

def commit (srcKey : UInt64) (counter : Nat) (now : Instant) (tie : Nat) : CtrlReplayTable :=
  match t.sources.lookup srcKey with
  | some (window, _) => { t with sources := t.sources.insert srcKey (window.commit counter, now) }
  | none =>
    let t := if t.sources.size ≥ t.maxSources then t.evictOldestUntilRoom tie else t
    if t.sources.size ≥ t.maxSources then t
    else { t with sources := t.sources.insert srcKey (ReplayWindow.new.commit counter, now) }

end CtrlReplayTable

/-! ## Rate limits -/

structure Bucket where
  tokens : ℚ
  lastRefill : Instant
  lastSeen : Instant

structure ControlRateLimiter where
  entries : HashMap UInt64 Bucket
  capacity : ℚ
  refillPerSec : ℚ
  reapAfter : Nat
  lastReap : Instant

namespace ControlRateLimiter

def new (capacity refillPerSec : ℚ) (now : Instant) : ControlRateLimiter where
  entries := ∅
  capacity := capacity
  refillPerSec := refillPerSec
  reapAfter := secs 300
  lastReap := now

def maxEntries : Nat := 65536

variable (l : ControlRateLimiter)

def reap (now : Instant) : ControlRateLimiter :=
  { l with entries := l.entries.retain fun _ b => now - b.lastSeen ≤ l.reapAfter, lastReap := now }

def refilled (srcKey : UInt64) (now : Instant) : Bucket :=
  let b := (l.entries.lookup srcKey).getD ⟨l.capacity, now, now⟩
  let elapsed : ℚ := ((now - b.lastRefill : Nat) : ℚ) / 1000000000
  ⟨min (b.tokens + elapsed * l.refillPerSec) l.capacity, now, now⟩

def allow (srcKey : UInt64) (now : Instant) : ControlRateLimiter × Bool :=
  let l := if now - l.lastReap ≥ secs 60 then l.reap now else l
  let full := decide (l.entries.size ≥ maxEntries) && (l.entries.lookup srcKey).isNone
  let l := if full then l.reap now else l
  if full && decide (l.entries.size ≥ maxEntries) then (l, false)
  else
    let b := l.refilled srcKey now
    if b.tokens < 1 then ({ l with entries := l.entries.insert srcKey b }, false)
    else ({ l with entries := l.entries.insert srcKey { b with tokens := b.tokens - 1 } }, true)

end ControlRateLimiter

end ConnectUnit
