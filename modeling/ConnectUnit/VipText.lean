import ConnectUnit.MembershipSound

/-!
# Virtual addresses as text

The addresses that `pick_free_vip` proposes are written as dotted quads and read back.
-/

namespace ConnectUnit

variable {n : Nat} {cs : List Char} {vip : String} {occupied : String → Bool}

theorem octet_toString (h : n < 256) : octet (toString n).toList = some n := by
  have hall : ∀ n < 256, octet (toString n).toList = some n := by decide +kernel
  exact hall n h

theorem not_dot_mem_of_octet (h : octet cs = some n) : '.' ∉ cs := by
  have hne : ∀ {a : Char} {x : Nat}, digit a = some x → '.' ≠ a := fun ha he => by
    rw [← he, show digit '.' = none by decide] at ha
    cases ha
  rcases octet_cases h with ⟨a, rfl, ha⟩ | ⟨a, b, x, y, rfl, ha, hb, -, rfl⟩ | ⟨a, b, c, x, y, z, rfl, ha, hb, hc, -,
    rfl, -⟩
  · simp [hne ha]
  · simp [hne ha, hne hb]
  simp [hne ha, hne hb, hne hc]

theorem parseU8_of_octet (h : octet cs = some n) : parseU8 cs = some n := by
  have hplus : digit '+' = none := by decide
  have hhead : ∀ {a : Char} {x : Nat}, digit a = some x → some a ≠ some '+' := fun ha he => by
    cases he
    rw [hplus] at ha
    cases ha
  have hle := octet_lt h
  rcases octet_cases h with ⟨a, rfl, ha⟩ | ⟨a, b, x, y, rfl, ha, hb, -, rfl⟩ | ⟨a, b, c, x, y, z, rfl, ha, hb, hc, -,
    rfl, -⟩
  · simp [parseU8, hhead ha, ha]
    omega
  · simp [parseU8, hhead ha, ha, hb]
    omega
  simp [parseU8, hhead ha, ha, hb, hc]
  omega

section
variable {a b c d : Nat}

theorem splitOn_dotted (ha : a < 256) (hb : b < 256) (hc : c < 256) (hd : d < 256) : (dotted a b c d).toList.splitOn
    '.' = [(toString a).toList, (toString b).toList, (toString c).toList, (toString d).toList] := by
  have hjoin : (dotted a b c d).toList =
      ['.'].intercalate [(toString a).toList, (toString b).toList, (toString c).toList, (toString d).toList] := by
    unfold dotted
    simp [List.intercalate, String.toList_append]
  rw [hjoin, List.splitOn_intercalate '.' ?_ (List.cons_ne_nil _ _)]
  intro l hl
  simp only [List.mem_cons, List.not_mem_nil, or_false] at hl
  rcases hl with rfl | rfl | rfl | rfl
  · exact not_dot_mem_of_octet (octet_toString ha)
  · exact not_dot_mem_of_octet (octet_toString hb)
  · exact not_dot_mem_of_octet (octet_toString hc)
  · exact not_dot_mem_of_octet (octet_toString hd)

theorem ipv4ToU32_dotted (ha : a < 256) (hb : b < 256) (hc : c < 256) (hd : d < 256) :
    ipv4ToU32 (dotted a b c d) = some (UInt32.ofNat (((a * 256 + b) * 256 + c) * 256 + d)) := by
  unfold ipv4ToU32
  rw [splitOn_dotted ha hb hc hd]
  dsimp only
  rw [octet_toString ha, octet_toString hb, octet_toString hc, octet_toString hd]

theorem octets_of_u32 {u : UInt32} (hu : u = UInt32.ofNat (((a * 256 + b) * 256 + c) * 256 + d)) (ha : a < 256)
    (hb : b < 256) (hc : c < 256) (hd : d < 256) : (u >>> 24).toUInt8 = UInt8.ofNat a ∧ (u >>> 16).toUInt8 =
    UInt8.ofNat b ∧ (u >>> 8).toUInt8 = UInt8.ofNat c ∧ u.toUInt8 = UInt8.ofNat d := by
  have hn : u.toNat = ((a * 256 + b) * 256 + c) * 256 + d := by
    rw [hu, UInt32.toNat_ofNat', Nat.mod_eq_of_lt (by omega)]
  have h24 : UInt32.toNat 24 = 24 := rfl
  have h16 : UInt32.toNat 16 = 16 := rfl
  have h8 : UInt32.toNat 8 = 8 := rfl
  simp only [← UInt8.toNat_inj, UInt32.toNat_toUInt8, UInt32.toNat_shiftRight, Nat.shiftRight_eq_div_pow, hn,
    UInt8.toNat_ofNat', h24, h16, h8, Nat.reduceMod, Nat.reducePow]
  omega

theorem claimVipValid_iff (hvip : ipv4ToU32 vip = some (UInt32.ofNat (((a * 256 + b) * 256 + c) * 256 + d)))
    (ha : a < 256) (hb : b < 256) (hc : c < 256) (hd : d < 256) : claimVipValid vip = true ↔ ¬ (224 ≤ a ∧ a ≤ 239) ∧ a
    ≠ 127 ∧ d ≠ 0 ∧ d ≠ 255 := by
  unfold claimVipValid
  rw [hvip]
  dsimp only
  generalize hu : UInt32.ofNat (((a * 256 + b) * 256 + c) * 256 + d) = u
  obtain ⟨h1, -, -, h4⟩ := octets_of_u32 hu.symm ha hb hc hd
  have hn : u.toNat = ((a * 256 + b) * 256 + c) * 256 + d := by
    rw [← hu, UInt32.toNat_ofNat', Nat.mod_eq_of_lt (by omega)]
  rw [h1, h4]
  simp only [ne_eq, Bool.and_eq_true, decide_eq_true_eq, Bool.not_eq_true', Bool.and_eq_false_iff,
    decide_eq_false_iff_not, UInt8.le_iff_toNat_le, ← UInt8.toNat_inj, ← UInt32.toNat_inj, UInt8.toNat_ofNat', hn]
  have hconst : UInt8.toNat 224 = 224 ∧ UInt8.toNat 239 = 239 ∧ UInt8.toNat 127 = 127 ∧ UInt8.toNat 0 = 0 ∧
      UInt8.toNat 255 = 255 ∧ UInt32.toNat 0 = 0 ∧ UInt32.toNat 4294967295 = 4294967295 := by decide
  omega

end

/-! ## What is proposed -/

theorem octets_of_valid (h : claimVipValid vip = true) : ∃ a b c d, a < 256 ∧ b < 256 ∧ c < 256 ∧ d < 256 ∧ ipv4ToU32
    vip = some (UInt32.ofNat (((a * 256 + b) * 256 + c) * 256 + d)) ∧ (vip.toList.splitOn '.').filterMap parseU8 =
    [a, b, c, d] := by
  have hsome : ∃ u, ipv4ToU32 vip = some u := by
    unfold claimVipValid at h
    split at h
    · cases h
    exact ⟨_, by assumption⟩
  obtain ⟨u, hu⟩ := hsome
  rw [hu]
  unfold ipv4ToU32 at hu
  split at hu
  · rename_i as bs cs ds hsplit
    rw [hsplit]
    split at hu
    · rename_i a b c d ha hb hc hd
      cases hu
      refine ⟨a, b, c, d, octet_lt ha, octet_lt hb, octet_lt hc, octet_lt hd, rfl, ?_⟩
      simp [parseU8_of_octet ha, parseU8_of_octet hb, parseU8_of_octet hc, parseU8_of_octet hd]
    · cases hu
  · cases hu

theorem octets_of_dotted {a b c d : Nat} (ha : a < 256) (hb : b < 256) (hc : c < 256) (hd : d < 256) :
    ((dotted a b c d).toList.splitOn '.').filterMap parseU8 = [a, b, c, d] := by
  rw [splitOn_dotted ha hb hc hd]
  simp only [List.filterMap_cons, parseU8_of_octet (octet_toString ha), parseU8_of_octet (octet_toString hb),
    parseU8_of_octet (octet_toString hc), parseU8_of_octet (octet_toString hd), List.filterMap_nil]

theorem pickFreeVip_host {base : String} {a b c d : Nat}
    (hbase : (base.toList.splitOn '.').filterMap parseU8 = [a, b, c, d]) (h : pickFreeVip base occupied = some vip) :
    ∃ host, 1 ≤ host ∧ host ≤ 254 ∧ vip = dotted a b c host := by
  unfold pickFreeVip at h
  rw [hbase] at h
  obtain ⟨offset, -, rfl⟩ := List.mem_map.mp (List.mem_of_find?_eq_some h)
  exact ⟨_, by omega, by omega, rfl⟩

/-- The scan meets every host, in the 16-bit and 8-bit arithmetic of the source. -/
theorem exists_offset (d : UInt8) {host : Nat} (h1 : 1 ≤ host) (h2 : host ≤ 254) :
    ∃ offset < 254, ((d.toNat * 37 + 17) % 254 + offset) % 254 + 1 = host ∧
      (((d.toUInt16 * 37 + 17) % 254 + UInt16.ofNat offset) % 254).toUInt8 + 1 = UInt8.ofNat host := by
  have hd := d.toNat_lt
  have hstart : (d.toNat * 37 + 17) % 254 < 254 := Nat.mod_lt _ (by decide)
  have hlt : (host + 253 - (d.toNat * 37 + 17) % 254) % 254 < 254 := Nat.mod_lt _ (by decide)
  have hhost : ((d.toNat * 37 + 17) % 254 + (host + 253 - (d.toNat * 37 + 17) % 254) % 254) % 254 + 1 = host := by
    omega
  refine ⟨_, hlt, hhost, ?_⟩
  generalize (host + 253 - (d.toNat * 37 + 17) % 254) % 254 = offset at hlt hhost
  rw [← UInt8.toNat_inj]
  simp only [UInt8.toNat_add, UInt16.toNat_toUInt8, UInt16.toNat_mod, UInt16.toNat_add, UInt16.toNat_mul,
    UInt8.toNat_toUInt16, UInt16.toNat_ofNat', UInt8.toNat_ofNat', UInt16.reduceToNat, UInt8.reduceToNat]
  rw [Nat.mod_eq_of_lt (show d.toNat * 37 < 2 ^ 16 by omega), Nat.mod_eq_of_lt (show _ + 17 < 2 ^ 16 by omega)]
  generalize (d.toNat * 37 + 17) % 254 = start at hstart hhost
  omega

/-- A free host of the /24 is found whenever there is one. -/
theorem pickFreeVip_complete (a b c d : UInt8) (occupied : String → Bool) :
    ((pickFreeVip (dotted a.toNat b.toNat c.toNat d.toNat) occupied).isSome ↔
      ∃ host, 1 ≤ host ∧ host ≤ 254 ∧ occupied (dotted a.toNat b.toNat c.toNat host) = false) ∧
    ∀ vip, pickFreeVip (dotted a.toNat b.toNat c.toNat d.toNat) occupied = some vip →
      (∃ host, 1 ≤ host ∧ host ≤ 254 ∧ vip = dotted a.toNat b.toNat c.toNat host) ∧ occupied vip = false := by
  have hoctets := octets_of_dotted a.toNat_lt b.toNat_lt c.toNat_lt d.toNat_lt
  have hpicked : ∀ vip, pickFreeVip (dotted a.toNat b.toNat c.toNat d.toNat) occupied = some vip →
      (∃ host, 1 ≤ host ∧ host ≤ 254 ∧ vip = dotted a.toNat b.toNat c.toNat host) ∧ occupied vip = false :=
    fun vip h => ⟨pickFreeVip_host hoctets h, pickFreeVip_free h⟩
  refine ⟨⟨fun h => ?_, fun h => ?_⟩, hpicked⟩
  · obtain ⟨vip, hvip⟩ := Option.isSome_iff_exists.mp h
    obtain ⟨⟨host, h1, h2, rfl⟩, hfree⟩ := hpicked vip hvip
    exact ⟨host, h1, h2, hfree⟩
  obtain ⟨host, h1, h2, hfree⟩ := h
  obtain ⟨offset, hlt, hhost, -⟩ := exists_offset d h1 h2
  unfold pickFreeVip
  rw [hoctets]
  dsimp only
  rw [List.find?_isSome]
  refine ⟨_, List.mem_map.mpr ⟨offset, List.mem_range.mpr hlt, rfl⟩, ?_⟩
  rw [hhost, hfree]
  rfl

theorem dotted_ne_empty {a b c d : Nat} : dotted a b c d ≠ "" := by
  intro h
  have hl := congrArg String.toList h
  simp [dotted, String.toList_append] at hl

def rerollBase (P : Primitives) (key : Option Key) (own : String) : String :=
  match key with
  | some key => Member.floatunitSubnetBaseVip P key
  | none => own

theorem acceptWireClaimVip_pick {P : Primitives} {key : Option Key} {own : String}
    (hown : acceptWireClaimVip P key own = true)
    (h : pickFreeVip (rerollBase P key own) occupied = some vip) :
    vip ≠ "" ∧ acceptWireClaimVip P key vip = true := by
  cases key with
  | none =>
    have hvalid := claimVipValid_of_accept hown
    obtain ⟨a, b, c, d, ha, hb, hc, hd, hu, hsplit⟩ := octets_of_valid hvalid
    obtain ⟨host, h1, h2, rfl⟩ := pickFreeVip_host hsplit h
    refine ⟨dotted_ne_empty, ?_⟩
    have hval := (claimVipValid_iff hu ha hb hc hd).mp hvalid
    unfold acceptWireClaimVip
    dsimp only
    exact (claimVipValid_iff (ipv4ToU32_dotted ha hb hc (by omega)) ha hb hc (by omega)).mpr
      ⟨hval.1, hval.2.1, by omega, by omega⟩
  | some k =>
    have h1 := (deriveFloatunitSubnet24 P k).1.toNat_lt
    have h2 := (deriveFloatunitSubnet24 P k).2.1.toNat_lt
    have h3 := (deriveFloatunitSubnet24 P k).2.2.toNat_lt
    have hfirst : (deriveFloatunitSubnet24 P k).1.toNat = 10 := rfl
    have hsplit := octets_of_dotted h1 h2 h3 (show 1 < 256 by omega)
    obtain ⟨host, hlo, hhi, rfl⟩ := pickFreeVip_host hsplit h
    have hu := ipv4ToU32_dotted h1 h2 h3 (show host < 256 by omega)
    refine ⟨dotted_ne_empty, ?_⟩
    have hval := (claimVipValid_iff hu h1 h2 h3 (by omega)).mpr ⟨by omega, by omega, by omega, by omega⟩
    obtain ⟨o1, o2, o3, -⟩ := octets_of_u32 rfl h1 h2 h3 (show host < 256 by omega)
    unfold acceptWireClaimVip vipInFloatunitSubnet
    rw [hval, hu]
    refine decide_eq_true ?_
    rw [o1, o2, o3, UInt8.ofNat_toNat, UInt8.ofNat_toNat, UInt8.ofNat_toNat]

end ConnectUnit
