import ConnectUnit.Lib.HashMap

/-!
# Addresses and time

Socket addresses, the textual form of an IPv4 address, and the keys that the engine derives from them.
-/

namespace ConnectUnit

variable {n : Nat} {cs : List Char} {u : UInt32}

abbrev Bytes := List UInt8

-- named, so that a literal of `Fin 2` or `Fin 3` carries no proof of its own
instance neZero_two : NeZero 2 := ⟨by decide⟩

instance neZero_three : NeZero 3 := ⟨by decide⟩

/-- Nanoseconds of the monotonic clock; differences are durations and never negative. -/
abbrev Instant := Nat

def secs (n : Nat) : Nat := n * 1000000000

def millis (n : Nat) : Nat := n * 1000000

inductive IpAddr where
  | v4 (bits : UInt32)
  | v6 (bits : BitVec 128)
  deriving DecidableEq, Repr

inductive SocketAddr where
  | v4 (bits : UInt32) (port : UInt16)
  | v6 (bits : BitVec 128) (port : UInt16) (flowinfo scopeId : UInt32)
  deriving DecidableEq, Repr

def SocketAddr.ip : SocketAddr → IpAddr
  | .v4 b _ => .v4 b
  | .v6 b _ _ _ => .v6 b

def SocketAddr.port : SocketAddr → UInt16
  | .v4 _ p => p
  | .v6 _ p _ _ => p

def srcKey : IpAddr → UInt64
  | .v4 b => b.toUInt64
  | .v6 b =>
    let hi := UInt64.ofNat (b.toNat / 2 ^ 64)
    let lo := UInt64.ofNat (b.toNat % 2 ^ 64)
    hi ^^^ lo

def rotateLeft (k : UInt64) (n : UInt64) : UInt64 := (k <<< n) ||| (k >>> (64 - n))

def srcAddrKey (addr : SocketAddr) : UInt64 :=
  rotateLeft (srcKey addr.ip) 17 ^^^ addr.port.toUInt64

/-! ## IPv4 addresses as text -/

def digit (c : Char) : Option Nat :=
  if '0' ≤ c ∧ c ≤ '9' then some (c.toNat - '0'.toNat) else none

def octet : List Char → Option Nat
  | [a] => digit a
  | [a, b] =>
    match digit a, digit b with
    | some x, some y => if x = 0 then none else some (10 * x + y)
    | _, _ => none
  | [a, b, c] =>
    match digit a, digit b, digit c with
    | some x, some y, some z =>
      if x = 0 ∨ 255 < 100 * x + 10 * y + z then none else some (100 * x + 10 * y + z)
    | _, _, _ => none
  | _ => none

def ipv4ToU32 (ip : String) : Option UInt32 :=
  match ip.toList.splitOn '.' with
  | [a, b, c, d] =>
    match octet a, octet b, octet c, octet d with
    | some w, some x, some y, some z => some (UInt32.ofNat (((w * 256 + x) * 256 + y) * 256 + z))
    | _, _, _, _ => none
  | _ => none

theorem digit_lt {c : Char} (h : digit c = some n) : n < 10 := by
  unfold digit at h
  split at h
  · rename_i hc
    have hle : c.toNat ≤ '9'.toNat := hc.2
    simp only [Option.some.injEq] at h
    have : '9'.toNat = 57 := rfl
    have : '0'.toNat = 48 := rfl
    omega
  · cases h

theorem digit_inj {a b : Char} (ha : digit a = some n) (hb : digit b = some n) : a = b := by
  unfold digit at ha hb
  split at ha
  · rename_i hca
    split at hb
    · rename_i hcb
      simp only [Option.some.injEq] at ha hb
      have h0 : '0'.toNat = 48 := rfl
      have ha0 : '0'.toNat ≤ a.toNat := hca.1
      have hb0 : '0'.toNat ≤ b.toNat := hcb.1
      exact Char.toNat_inj.mp (by omega)
    · cases hb
  · cases ha

theorem octet_cases (h : octet cs = some n) : (∃ a, cs = [a] ∧ digit a = some n) ∨
    (∃ a b x y, cs = [a, b] ∧ digit a = some x ∧ digit b = some y ∧ x ≠ 0 ∧ n = 10 * x + y) ∨
    (∃ a b c x y z, cs = [a, b, c] ∧ digit a = some x ∧ digit b = some y ∧ digit c = some z ∧
      x ≠ 0 ∧ n = 100 * x + 10 * y + z ∧ n ≤ 255) := by
  unfold octet at h
  split at h
  · rename_i a; exact .inl ⟨a, rfl, h⟩
  · rename_i a b
    split at h
    · rename_i x y hx hy
      split at h
      · cases h
      rename_i hne
      simp only [Option.some.injEq] at h
      exact .inr (.inl ⟨a, b, x, y, rfl, hx, hy, hne, h.symm⟩)
    · cases h
  · rename_i a b c
    split at h
    · rename_i x y z hx hy hz
      split at h
      · cases h
      rename_i hne
      simp only [Option.some.injEq] at h
      exact .inr (.inr ⟨a, b, c, x, y, z, rfl, hx, hy, hz, by omega, h.symm, by omega⟩)
    · cases h
  · cases h

theorem octet_lt (h : octet cs = some n) : n < 256 := by
  rcases octet_cases h with ⟨a, _, ha⟩ | ⟨a, b, x, y, _, ha, hb, _, rfl⟩ | ⟨_, _, _, _, _, _, _, _, _, _, _, _, h⟩
  · have := digit_lt ha; omega
  · have := digit_lt ha; have := digit_lt hb; omega
  omega

theorem octet_inj {as bs : List Char} (ha : octet as = some n) (hb : octet bs = some n) : as = bs := by
  rcases octet_cases ha with ⟨a, rfl, ha⟩ | ⟨a, a', x, x', rfl, h1, h2, hx, hn⟩ |
      ⟨a, a', a'', x, x', x'', rfl, h1, h2, h3, hx, hn, _⟩ <;>
    rcases octet_cases hb with ⟨b, rfl, hb⟩ | ⟨b, b', y, y', rfl, g1, g2, hy, gn⟩ |
      ⟨b, b', b'', y, y', y'', rfl, g1, g2, g3, hy, gn, _⟩
  -- the number of digits is read off the value, so the mixed cases are empty
  · rw [digit_inj ha hb]
  · have := digit_lt ha; omega
  · have := digit_lt ha; omega
  · have := digit_lt hb; omega
  · have := digit_lt h2; have := digit_lt g2
    have e1 : x = y := by omega
    have e2 : x' = y' := by omega
    subst e1 e2
    rw [digit_inj h1 g1, digit_inj h2 g2]
  · have := digit_lt h1; have := digit_lt h2; omega
  · have := digit_lt hb; omega
  · have := digit_lt g1; have := digit_lt g2; omega
  · have := digit_lt h2; have := digit_lt h3; have := digit_lt g2; have := digit_lt g3
    have e1 : x = y := by omega
    have e2 : x' = y' := by omega
    have e3 : x'' = y'' := by omega
    subst e1 e2 e3
    rw [digit_inj h1 g1, digit_inj h2 g2, digit_inj h3 g3]

theorem ipv4ToU32_inj {s t : String} (hs : ipv4ToU32 s = some u) (ht : ipv4ToU32 t = some u) : s = t := by
  unfold ipv4ToU32 at hs ht
  split at hs <;> [skip; cases hs]
  rename_i a b c d es
  split at ht <;> [skip; cases ht]
  rename_i a' b' c' d' et
  split at hs <;> [skip; cases hs]
  rename_i w x y z ha hb hc hd
  split at ht <;> [skip; cases ht]
  rename_i w' x' y' z' ha' hb' hc' hd'
  simp only [Option.some.injEq] at hs ht
  have lt := And.intro (octet_lt ha) (And.intro (octet_lt hb) (And.intro (octet_lt hc) (octet_lt hd)))
  have lt' := And.intro (octet_lt ha') (And.intro (octet_lt hb') (And.intro (octet_lt hc') (octet_lt hd')))
  have hu := congrArg UInt32.toNat (hs.trans ht.symm)
  rw [UInt32.toNat_ofNat', UInt32.toNat_ofNat', Nat.mod_eq_of_lt (by omega), Nat.mod_eq_of_lt (by omega)] at hu
  obtain ⟨rfl, rfl, rfl, rfl⟩ : w = w' ∧ x = x' ∧ y = y' ∧ z = z' := by omega
  have join (l : List Char) : ['.'].intercalate (l.splitOn '.') = l := List.intercalate_splitOn '.'
  have hl : s.toList = t.toList := by
    rw [← join s.toList, ← join t.toList, es, et, octet_inj ha ha', octet_inj hb hb', octet_inj hc hc',
      octet_inj hd hd']
  exact String.toList_inj.mp hl

example : ipv4ToU32 "10.0.0.2" = some 0x0A000002 ∧ ipv4ToU32 "10.0.0.02" = none := by decide

def sameSubnet (a b : UInt32) (pre : Nat) : Bool :=
  let p := min pre 32
  if p = 0 then true
  else
    let mask := (0xFFFFFFFF : UInt32) <<< UInt32.ofNat (32 - p)
    a &&& mask == b &&& mask

/-! ## Big-endian bytes -/

def u32ToBeBytes (u : UInt32) : Bytes :=
  [(u >>> 24).toUInt8, (u >>> 16).toUInt8, (u >>> 8).toUInt8, u.toUInt8]

theorem u32ToBeBytes_inj {v : UInt32} (h : u32ToBeBytes u = u32ToBeBytes v) : u = v := by
  simp only [u32ToBeBytes, List.cons.injEq, and_true, ← UInt8.toNat_inj, UInt32.toNat_toUInt8,
    UInt32.toNat_shiftRight, Nat.shiftRight_eq_div_pow] at h
  have h24 : UInt32.toNat 24 = 24 := rfl
  have h16 : UInt32.toNat 16 = 16 := rfl
  have h8 : UInt32.toNat 8 = 8 := rfl
  simp only [h24, h16, h8, Nat.reduceMod, Nat.reducePow] at h
  have hu := u.toNat_lt
  have hv := v.toNat_lt
  exact UInt32.toNat_inj.mp (by omega)

end ConnectUnit
