import ConnectUnit.Lib.Meter
import ConnectUnit.ReplaySound

/-!
# Rate limits over runs

A source passes its rate limit at most `capacity + refillPerSec * T` times in `T` seconds.
-/

namespace ConnectUnit

variable {now' : Instant} {key k : UInt64} {tokens : ℚ}

namespace ControlRateLimiter

def allowStep (l : ControlRateLimiter) (call : UInt64 × Instant) : ControlRateLimiter × List UInt64 :=
  let r := l.allow call.1 call.2
  (r.1, if r.2 then [call.1] else [])

def credit (l : ControlRateLimiter) (srcKey : UInt64) (now : Instant) : ℚ := (l.refilled srcKey now).tokens

/-- The buckets of a limiter that has been called up to `now`. -/
structure Settled (capacity refillPerSec : ℚ) (l : ControlRateLimiter) (now : Instant) : Prop where
  cap : l.capacity = capacity
  refill : l.refillPerSec = refillPerSec
  reapAfter : l.reapAfter = secs 300
  bucket : ∀ key b, l.entries.lookup key = some b → 0 ≤ b.tokens ∧ b.lastRefill = b.lastSeen ∧ b.lastSeen ≤ now

section
variable {C r : ℚ} {l : ControlRateLimiter} {now : Instant}

theorem settled_new (start now : Instant) : Settled C r (new C r start) now :=
  ⟨rfl, rfl, rfl, fun _ _ h => by cases h⟩

theorem Settled.later (h : Settled C r l now) (hle : now ≤ now') : Settled C r l now' :=
  ⟨h.cap, h.refill, h.reapAfter, fun key b hb =>
    ⟨(h.bucket key b hb).1, (h.bucket key b hb).2.1, Nat.le_trans (h.bucket key b hb).2.2 hle⟩⟩

theorem credit_of_none (h : l.entries.lookup key = none) : l.credit key now = l.capacity := by
  rw [credit, refilled_fresh h]

theorem credit_of_some {b : Bucket} (h : l.entries.lookup key = some b) : l.credit key now = min
    (b.tokens + ((now - b.lastRefill : Nat) : ℚ) / 1000000000 * l.refillPerSec) l.capacity := by
  simp [credit, refilled, h]

theorem Settled.credit_le (h : Settled C r l now) (key : UInt64) (t : Instant) : l.credit key t ≤ C := by
  rw [← h.cap]
  exact min_le_right _ _

theorem lookup_reap : (l.reap now).entries.lookup key =
    (l.entries.lookup key).filter fun b => now - b.lastSeen ≤ l.reapAfter :=
  HashMap.lookup_retain ..

theorem Settled.reaped (h : Settled C r l now) : Settled C r (l.reap now) now := by
  refine ⟨h.cap, h.refill, h.reapAfter, ?_⟩
  intro key b hb
  rw [lookup_reap] at hb
  exact h.bucket key b (Option.filter_eq_some_iff.mp hb).1

theorem Settled.spend (h : Settled C r l now) (h0 : 0 ≤ tokens) :
    Settled C r { l with entries := l.entries.insert key ⟨tokens, now, now⟩ } now := by
  refine ⟨h.cap, h.refill, h.reapAfter, ?_⟩
  intro k b hb
  rw [HashMap.lookup_insert_eq] at hb
  split at hb
  · cases hb
    exact ⟨h0, rfl, Nat.le_refl _⟩
  exact h.bucket k b hb

theorem credit_insert : credit { l with entries := l.entries.insert key ⟨tokens, now, now⟩ } k now =
      if k = key then min tokens l.capacity else l.credit k now := by
  unfold credit refilled
  dsimp only
  rw [HashMap.lookup_insert_eq]
  by_cases hk : k = key
  · simp [hk]
  simp [hk]

theorem Settled.charge (h : Settled C r l now) {spent : ℚ} (hs : spent ≤ l.credit key now) (h0 : 0 ≤ spent) :
    Settled C r { l with entries := l.entries.insert key ⟨l.credit key now - spent, now, now⟩ } now ∧
      credit { l with entries := l.entries.insert key ⟨l.credit key now - spent, now, now⟩ } k now +
        (if key = k then spent else 0) = l.credit k now := by
  refine ⟨h.spend (by linarith), ?_⟩
  rw [credit_insert]
  by_cases hk : k = key
  · subst hk
    have hle := h.credit_le k now
    rw [if_pos rfl, if_pos rfl, min_eq_left (by rw [h.cap]; linarith)]
    linarith
  · rw [if_neg hk, if_neg (Ne.symm hk), add_zero]

structure Called (l : ControlRateLimiter) (key : UInt64) (now : Instant) (l' : ControlRateLimiter) (ok : Bool) :
    Prop where
  of_pass : ok = true → 1 ≤ l.credit key now ∧
    l' = { l with entries := l.entries.insert key ⟨l.credit key now - 1, now, now⟩ }
  of_fail : ok = false → l' = l ∨ l' = { l with entries := l.entries.insert key ⟨l.credit key now, now, now⟩ }

theorem allow_called (l : ControlRateLimiter) (key : UInt64) (now : Instant) : ∃ l₁ l₂, (l₁ = l ∨ l₁ = l.reap now) ∧
    (l₂ = l₁ ∨ l₂ = l₁.reap now) ∧ Called l₂ key now (l.allow key now).1 (l.allow key now).2 := by
  unfold ControlRateLimiter.allow
  dsimp only
  refine ⟨if now - l.lastReap ≥ secs 60 then l.reap now else l, ?_⟩
  generalize hl₁ : (if now - l.lastReap ≥ secs 60 then l.reap now else l) = l₁
  generalize hl₂ : (if (decide (l₁.entries.size ≥ maxEntries) && (l₁.entries.lookup key).isNone) = true then
    l₁.reap now else l₁) = l₂
  refine ⟨l₂, ?_, ?_, ?_⟩
  · split at hl₁
    · exact .inr hl₁.symm
    · exact .inl hl₁.symm
  · split at hl₂
    · exact .inr hl₂.symm
    · exact .inl hl₂.symm
  split
  · exact ⟨nofun, fun _ => .inl rfl⟩
  split
  · exact ⟨nofun, fun _ => .inr rfl⟩
  rename_i htokens
  exact ⟨fun _ => ⟨not_lt.mp htokens, rfl⟩, nofun⟩

/-! ## Credit -/

variable (hC : 1 ≤ C) (hr : C ≤ 300 * r)
include hC hr

section
variable (h : Settled C r l now)
include h

theorem Settled.credit_nonneg {t : Instant} : 0 ≤ l.credit key t := by
  cases hb : l.entries.lookup key with
  | none => rw [credit_of_none hb, h.cap]; linarith
  | some b =>
    have htokens := (h.bucket key b hb).1
    have hrate : 0 ≤ r := by linarith
    rw [credit_of_some hb, h.cap, h.refill]
    exact le_min (by positivity) (by linarith)

theorem Settled.credit_grows (hle : now ≤ now') :
    l.credit key now' ≤ l.credit key now + r / 1000000000 * (now' - now : Nat) := by
  have hrate : 0 ≤ r := by linarith
  have hadd : 0 ≤ r / 1000000000 * (now' - now : Nat) := by positivity
  cases hb : l.entries.lookup key with
  | none =>
    rw [credit_of_none hb, credit_of_none hb]
    linarith
  | some b =>
    obtain ⟨_, heq, hseen⟩ := h.bucket key b hb
    have hsplit : ((now' - b.lastRefill : Nat) : ℚ) = (now - b.lastRefill : Nat) + (now' - now : Nat) := by
      rw [← Nat.cast_add, heq]
      congr 1
      exact (Nat.sub_add_sub_cancel hle hseen).symm.trans (Nat.add_comm _ _)
    rw [credit_of_some hb, credit_of_some hb, h.refill, hsplit, min_add]
    apply min_le_min
    · rw [add_div, add_mul, div_mul_eq_mul_div, div_mul_eq_mul_div, div_mul_eq_mul_div, mul_comm r]
      linarith
    linarith

theorem Settled.credit_reap : (l.reap now).credit key now = l.credit key now := by
  cases hb : l.entries.lookup key with
  | none =>
    have hb' : (l.reap now).entries.lookup key = none := by rw [lookup_reap, hb]; rfl
    rw [credit_of_none hb, credit_of_none hb']
    rfl
  | some b =>
    obtain ⟨htokens, heq, hseen⟩ := h.bucket key b hb
    by_cases hkeep : now - b.lastSeen ≤ l.reapAfter
    · have hb' : (l.reap now).entries.lookup key = some b := by
        rw [lookup_reap, hb]
        simp only [Option.filter_some, hkeep, decide_true, if_true]
      rw [credit_of_some hb, credit_of_some hb']
      rfl
    have hb' : (l.reap now).entries.lookup key = none := by
      rw [lookup_reap, hb]
      simp only [Option.filter_some, hkeep, decide_false, if_false, Bool.false_eq_true]
    have hlong : (300000000000 : ℚ) ≤ (now - b.lastRefill : Nat) := by
      rw [h.reapAfter] at hkeep
      rw [heq]
      exact_mod_cast Nat.le_of_lt (Nat.not_le.mp hkeep)
    have hrate : 0 ≤ r := by linarith
    have hfull : C ≤ b.tokens + ((now - b.lastRefill : Nat) : ℚ) / 1000000000 * r := by
      have : 300 * r ≤ ((now - b.lastRefill : Nat) : ℚ) / 1000000000 * r :=
        mul_le_mul_of_nonneg_right (by linarith) hrate
      linarith
    rw [credit_of_none hb', credit_of_some hb, h.refill, h.cap, min_eq_right hfull]
    exact h.cap

theorem Settled.allow (key k : UInt64) : Settled C r (l.allow key now).1 now ∧
    (l.allow key now).1.credit k now + (if (l.allow key now).2 ∧ key = k then 1 else 0) = l.credit k now := by
  obtain ⟨l₁, l₂, hl₁, hl₂, hcall⟩ := allow_called l key now
  -- neither of the two reaps changes what a source finds
  have hreap : ∀ {l l' : ControlRateLimiter}, Settled C r l now → (l' = l ∨ l' = l.reap now) →
      Settled C r l' now ∧ l'.credit k now = l.credit k now := by
    intro l l' h hl'
    rcases hl' with rfl | rfl
    · exact ⟨h, rfl⟩
    exact ⟨h.reaped, h.credit_reap hC hr⟩
  obtain ⟨h₁, hc₁⟩ := hreap h hl₁
  obtain ⟨h₂, hc₂⟩ := hreap h₁ hl₂
  rw [← hc₁, ← hc₂]
  generalize l.allow key now = answer at hcall ⊢
  obtain ⟨l', ok⟩ := answer
  cases ok with
  | true =>
    obtain ⟨htokens, rfl⟩ := hcall.of_pass rfl
    simpa using h₂.charge htokens zero_le_one
  | false =>
    rcases hcall.of_fail rfl with rfl | rfl
    · exact ⟨h₂, by simp⟩
    simpa using h₂.charge (h₂.credit_nonneg hC hr) (le_refl 0)

end

end

/-! ## Windows -/

theorem countP_allowStep {l : ControlRateLimiter} {call : UInt64 × Instant} :
    ((l.allowStep call).2.countP (· == k) : ℚ) = if (l.allow call.1 call.2).2 ∧ call.1 = k then 1 else 0 := by
  unfold allowStep
  dsimp only
  generalize (l.allow call.1 call.2).2 = ok
  cases ok with
  | true => by_cases hk : call.1 = k <;> simp [hk]
  | false => simp

def metered {C r : ℚ} (hC : 1 ≤ C) (hr : C ≤ 300 * r) (k : UInt64) :
    Meter.Metered allowStep Prod.snd (· == k) C (r / 1000000000) where
  Valid := Settled C r
  credit l t := l.credit k t
  rate_nonneg := by have : 0 ≤ r := by linarith
                    positivity
  nonneg {_ t} h := h.credit_nonneg hC hr
  le_capacity {_ t} h := h.credit_le k t
  valid_later h hle := h.later hle
  valid_step {_ a} h := (h.allow hC hr a.1 k).1
  grows h hle := h.credit_grows hC hr hle
  spends {l a} h := by
    rw [countP_allowStep]
    exact (h.allow hC hr a.1 k).2.le

/-- How many calls of `srcKey` pass within `T` nanoseconds from `lo` on. -/
def passed (srcKey : UInt64) (lo T : Nat) (l : ControlRateLimiter) (calls : List (UInt64 × Instant)) : Nat :=
  Meter.emittedWithin allowStep Prod.snd (· == srcKey) lo (lo + T) l calls

theorem passed_le {C r : ℚ} (hC : 1 ≤ C) (hr : C ≤ 300 * r) (start : Instant) (calls : List (UInt64 × Instant))
    (hcalls : (calls.map Prod.snd).Pairwise (· ≤ ·)) (srcKey : UInt64) (lo T : Nat) :
    (passed srcKey lo T (new C r start) calls : ℚ) ≤ C + r * (T / 1000000000) := by
  have horder : Meter.InOrder Prod.snd 0 calls := List.pairwise_cons.mpr ⟨fun t _ => Nat.zero_le t, hcalls⟩
  have hbound := (metered hC hr srcKey).emittedWithin_le lo (lo + T) (settled_new start 0) horder
  rw [Nat.add_sub_cancel_left] at hbound
  calc (passed srcKey lo T (new C r start) calls : ℚ) ≤ C + r / 1000000000 * T := hbound
    _ = C + r * (T / 1000000000) := by ring

/-- Three calls within two seconds against a capacity of two and a refill of one token per second. -/
theorem passed_le_burst : passed 7 0 (secs 2) (new 2 1 0) [(7, 0), (7, 0), (7, 0), (7, secs 2)] = 3 ∧
    (passed 7 0 (secs 2) (new 2 1 0) [(7, 0), (7, 0), (7, 0), (7, secs 2)] : ℚ) ≤ 2 + 1 * (secs 2 / 1000000000) :=
  ⟨by decide +kernel, passed_le (by norm_num) (by norm_num) 0 _ (by decide +kernel) 7 0 (secs 2)⟩

end ControlRateLimiter

end ConnectUnit
