import ConnectUnit.Crypto

/-!
# Self-claimed virtual addresses

Which virtual IP a node may claim: a host address, and under a network key
one in the /24 that the key determines.
-/

namespace ConnectUnit

def claimVipValid (vip : String) : Bool :=
  match ipv4ToU32 vip with
  | none => false
  | some ip =>
    let first := (ip >>> 24).toUInt8
    let last := ip.toUInt8
    ip ≠ 0 && ip ≠ 0xFFFFFFFF && !(224 ≤ first && first ≤ 239) && first ≠ 127 && last ≠ 0 && last ≠ 255

section
variable (P : Primitives)

def deriveFloatunitSubnet24 (key : Key) : UInt8 × UInt8 × UInt8 :=
  let okm := P.hkdfSubnet key
  (10, okm.1, okm.2)

def vipInFloatunitSubnet (key : Key) (vip : String) : Bool :=
  if !claimVipValid vip then false
  else
    match ipv4ToU32 vip with
    | none => false
    | some ip => ((ip >>> 24).toUInt8, (ip >>> 16).toUInt8, (ip >>> 8).toUInt8) = deriveFloatunitSubnet24 P key

def acceptWireClaimVip (unitKey : Option Key) (vip : String) : Bool :=
  match unitKey with
  | some key => vipInFloatunitSubnet P key vip
  | none => claimVipValid vip

end

end ConnectUnit
