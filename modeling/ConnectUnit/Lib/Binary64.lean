import Mathlib.Data.Int.Log
import Mathlib.Data.Rat.Floor
import Mathlib.Tactic.Linarith
import Mathlib.Tactic.Positivity
import Mathlib.Tactic.Ring

/-!
# Rounding to binary64

The values of a binary floating point number with 53 bits are `k * 2 ^ e`; the exponent has a lower bound only, so
nothing here is about overflow.
-/

namespace Binary64

variable (x : ℚ)

def Representable : Prop := ∃ k e : ℤ, |k| < 2 ^ 53 ∧ -1074 ≤ e ∧ x = k * 2 ^ e

/-- The exponent of the last place of a number. -/
def place : ℤ := max (Int.log 2 |x|) (-1022) - 52

def roundEven (q : ℚ) : ℤ :=
  let r := q - ⌊q⌋
  if r < 1 / 2 then ⌊q⌋ else if 1 / 2 < r then ⌊q⌋ + 1 else if ⌊q⌋ % 2 = 0 then ⌊q⌋ else ⌊q⌋ + 1

def round : ℚ := roundEven (x / 2 ^ place x) * 2 ^ place x

theorem roundEven_near (q : ℚ) : |roundEven q - q| ≤ 1 / 2 := by
  have hlo := Int.floor_le q
  have hhi := Int.lt_floor_add_one q
  unfold roundEven
  dsimp only
  rw [abs_le]
  split
  · constructor <;> linarith
  split
  · push_cast
    constructor <;> linarith
  split
  · constructor <;> linarith
  push_cast
  constructor <;> linarith

theorem roundEven_nearest (q : ℚ) (k : ℤ) : |roundEven q - q| ≤ |k - q| := by
  by_cases hk : k = roundEven q
  · rw [hk]
  have hone : (1 : ℚ) ≤ |(k : ℚ) - roundEven q| := by
    have : (1 : ℤ) ≤ |k - roundEven q| := Int.one_le_abs (sub_ne_zero.mpr hk)
    exact_mod_cast this
  have htri : |(k : ℚ) - roundEven q| ≤ |(k : ℚ) - q| + |roundEven q - q| := by
    rw [abs_sub_comm (roundEven q : ℚ) q]
    exact abs_sub_le _ _ _
  have hhalf := roundEven_near q
  linarith

theorem two_zpow_pos (e : ℤ) : (0 : ℚ) < 2 ^ e := zpow_pos two_pos e

theorem neg_1074_le_place : -1074 ≤ place x := by
  have := le_max_right (Int.log 2 |x|) (-1022)
  unfold place
  omega

theorem abs_lt_place : |x / 2 ^ place x| < 2 ^ 53 := by
  have hlog : |x| < (2 : ℚ) ^ (place x + 53) := by
    refine lt_of_lt_of_le (Int.lt_zpow_succ_log_self (b := 2) one_lt_two |x|) ?_
    refine zpow_le_zpow_right₀ one_le_two ?_
    unfold place
    omega
  rw [abs_div, abs_of_pos (two_zpow_pos _), div_lt_iff₀ (two_zpow_pos _)]
  rwa [zpow_add₀ two_ne_zero, mul_comm] at hlog

theorem representable_round : Representable (round x) := by
  have hlt := abs_lt_place x
  have hnear := roundEven_near (x / 2 ^ place x)
  have hle : |roundEven (x / 2 ^ place x)| ≤ 2 ^ 53 := by
    have : (|roundEven (x / 2 ^ place x)| : ℚ) < 2 ^ 53 + 1 := by
      have htri := abs_sub_abs_le_abs_sub (roundEven (x / 2 ^ place x) : ℚ) (x / 2 ^ place x)
      linarith
    have hint : |roundEven (x / 2 ^ place x)| < 2 ^ 53 + 1 := by exact_mod_cast this
    omega
  have hplace := neg_1074_le_place x
  rcases lt_or_eq_of_le hle with hbits | hbits
  · exact ⟨_, place x, hbits, hplace, rfl⟩
  -- the next power of two needs one bit
  have hpow : (2 : ℚ) ^ (place x + 53) = 2 ^ 53 * 2 ^ place x := by rw [zpow_add₀ two_ne_zero, mul_comm]; rfl
  rcases (abs_eq (by norm_num)).mp hbits with h | h
  · refine ⟨1, place x + 53, by norm_num, by omega, ?_⟩
    rw [round, h, hpow]
    push_cast
    ring
  refine ⟨-1, place x + 53, by norm_num, by omega, ?_⟩
  rw [round, h, hpow]
  push_cast
  ring

theorem Representable.multiple_or_lt {f x : ℚ} (hf : Representable f) (hx : x ≠ 0) :
    (∃ k : ℤ, f = k * 2 ^ place x) ∨ |f| < 2 ^ (place x + 52) ∧ (2 : ℚ) ^ (place x + 52) ≤ |x| := by
  obtain ⟨k, e, hk, he, rfl⟩ := hf
  rcases le_or_gt (place x) e with hle | hlt
  · refine .inl ⟨k * 2 ^ (e - place x).toNat, ?_⟩
    push_cast
    rw [mul_assoc, ← zpow_natCast, Int.toNat_of_nonneg (by omega), ← zpow_add₀ two_ne_zero, sub_add_cancel]
  refine .inr ⟨?_, ?_⟩
  · have hbits : (|k| : ℚ) < 2 ^ 53 := by exact_mod_cast hk
    calc |(k : ℚ) * 2 ^ e| = |(k : ℚ)| * 2 ^ e := by rw [abs_mul, abs_of_pos (two_zpow_pos e)]
      _ < 2 ^ 53 * 2 ^ e := mul_lt_mul_of_pos_right hbits (two_zpow_pos e)
      _ = (2 : ℚ) ^ (53 + e) := by rw [zpow_add₀ two_ne_zero]; rfl
      _ ≤ 2 ^ (place x + 52) := zpow_le_zpow_right₀ one_le_two (by omega)
  -- the exponent of a value is only smaller if the number is not subnormal
  have hplace : place x + 52 = Int.log 2 |x| := by
    unfold place at *
    omega
  rw [hplace]
  exact Int.zpow_log_le_self one_lt_two (abs_pos.mpr hx)

theorem round_zero : round 0 = 0 := by
  unfold round roundEven
  simp

theorem round_nearest {f : ℚ} (hf : Representable f) : |round x - x| ≤ |f - x| := by
  by_cases hx : x = 0
  · rw [hx, round_zero, sub_self, abs_zero]
    exact abs_nonneg _
  have hpos := two_zpow_pos (place x)
  have hmultiple (k : ℤ) : |round x - x| ≤ |k * 2 ^ place x - x| := by
    have hscale (q : ℚ) : q * 2 ^ place x - x = (q - x / 2 ^ place x) * 2 ^ place x := by
      rw [sub_mul, div_mul_cancel₀ _ hpos.ne']
    rw [round, hscale, hscale, abs_mul, abs_mul]
    exact mul_le_mul_of_nonneg_right (roundEven_nearest _ k) (abs_nonneg _)
  rcases hf.multiple_or_lt hx with ⟨k, rfl⟩ | ⟨hlt, hle⟩
  · exact hmultiple k
  -- the power of two with the sign of the number lies between the value and the number
  have hpow : (2 : ℚ) ^ (place x + 52) = 2 ^ 52 * 2 ^ place x := by rw [zpow_add₀ two_ne_zero, mul_comm]; rfl
  rw [hpow] at hlt hle
  rcases abs_cases x with ⟨habs, _⟩ | ⟨habs, _⟩
  · have hnear := hmultiple (2 ^ 52)
    push_cast at hnear
    refine hnear.trans ?_
    rw [habs] at hle
    rw [abs_sub_comm, abs_sub_comm f, abs_of_nonneg (by linarith), abs_of_nonneg (by linarith [le_abs_self f])]
    linarith [le_abs_self f]
  have hnear := hmultiple (-2 ^ 52)
  push_cast at hnear
  refine hnear.trans ?_
  rw [habs] at hle
  rw [abs_of_nonneg (by linarith), abs_of_nonneg (by linarith [neg_abs_le f])]
  linarith [neg_abs_le f]

section
variable {x f : ℚ}

theorem Representable.round_eq (h : Representable x) : round x = x := by
  have hnear := round_nearest x h
  rw [sub_self, abs_zero] at hnear
  exact sub_eq_zero.mp (abs_nonpos_iff.mp hnear)

theorem Representable.le_round (hf : Representable f) (h : f ≤ x) : f ≤ round x := by
  by_contra hlt
  have hnear := round_nearest x hf
  rw [not_le] at hlt
  rw [abs_of_nonpos (by linarith), abs_of_nonpos (by linarith)] at hnear
  linarith

theorem Representable.round_le (hf : Representable f) (h : x ≤ f) : round x ≤ f := by
  by_contra hlt
  have hnear := round_nearest x hf
  rw [not_le] at hlt
  rw [abs_of_nonneg (by linarith), abs_of_nonneg (by linarith)] at hnear
  linarith

theorem Representable.two_mul (h : Representable x) : Representable (2 * x) := by
  obtain ⟨k, e, hk, he, rfl⟩ := h
  refine ⟨k, e + 1, hk, by omega, ?_⟩
  rw [zpow_add_one₀ two_ne_zero]
  ring

theorem representable_zero : Representable 0 := ⟨0, 0, by norm_num, by norm_num, by norm_num⟩

theorem representable_one : Representable 1 := ⟨1, 0, by norm_num, by norm_num, by norm_num⟩

theorem representable_half : Representable (1 / 2) := ⟨1, -1, by norm_num, by norm_num, by norm_num⟩

/-! ## Values around one -/

theorem Representable.exists_multiple (h : Representable x) {j : ℤ} (hj : (2 : ℚ) ^ j ≤ x) :
    ∃ m : ℤ, x = m * 2 ^ (j - 52) := by
  obtain ⟨k, e, hk, he, rfl⟩ := h
  have hbits : (k : ℚ) < 2 ^ 53 := by exact_mod_cast (le_abs_self k).trans_lt hk
  have hlt : (2 : ℚ) ^ j < 2 ^ (53 + e) := by
    rw [zpow_add₀ two_ne_zero]
    exact hj.trans_lt (mul_lt_mul_of_pos_right hbits (two_zpow_pos e))
  have hexp : j < 53 + e := (zpow_lt_zpow_iff_right₀ one_lt_two).mp hlt
  refine ⟨k * 2 ^ (e - (j - 52)).toNat, ?_⟩
  push_cast
  rw [mul_assoc, ← zpow_natCast, Int.toNat_of_nonneg (by omega), ← zpow_add₀ two_ne_zero, sub_add_cancel]

theorem Representable.exists_half (h : Representable x) (hx : 1 / 2 ≤ x) : ∃ m : ℤ, x = m / 2 ^ 53 := by
  obtain ⟨m, hm⟩ := h.exists_multiple (j := -1) (by norm_num; linarith)
  exact ⟨m, hm.trans (by norm_num [div_eq_mul_inv])⟩

theorem representable_div {m : ℤ} (hm : |m| ≤ 2 ^ 53) : Representable (m / 2 ^ 53) := by
  rcases lt_or_eq_of_le hm with hlt | heq
  · exact ⟨m, -53, hlt, by norm_num, by norm_num [div_eq_mul_inv]⟩
  rcases (abs_eq (by norm_num)).mp heq with h | h
  · exact ⟨1, 0, by norm_num, by norm_num, by rw [h]; norm_num⟩
  exact ⟨-1, 0, by norm_num, by norm_num, by rw [h]; norm_num⟩

theorem Representable.le_of_lt_one (h : Representable x) (hx : x < 1) : x ≤ 1 - 1 / 2 ^ 53 := by
  rcases le_or_gt (1 / 2) x with hhalf | hhalf
  · obtain ⟨m, rfl⟩ := h.exists_half hhalf
    rw [div_lt_one (by norm_num)] at hx
    have hm : m + 1 ≤ 2 ^ 53 := by exact_mod_cast hx
    have hm' : (m : ℚ) + 1 ≤ 2 ^ 53 := by exact_mod_cast hm
    rw [div_le_iff₀ (by norm_num)]
    norm_num at *
    linarith
  norm_num at *
  linarith

theorem Representable.le_of_one_lt (h : Representable x) (hx : 1 < x) : 1 + 1 / 2 ^ 52 ≤ x := by
  obtain ⟨m, hm⟩ := h.exists_multiple (j := 0) (by simpa using hx.le)
  have hx' : x = m / 2 ^ 52 := hm.trans (by norm_num [div_eq_mul_inv])
  rw [hx', lt_div_iff₀ (by norm_num), one_mul] at hx
  have hlt : 2 ^ 52 + 1 ≤ m := by exact_mod_cast hx
  have hle : (2 : ℚ) ^ 52 + 1 ≤ m := by exact_mod_cast hlt
  rw [hx', le_div_iff₀ (by norm_num)]
  norm_num at *
  linarith

theorem Representable.round_ne_of_above {a : ℚ} (hf : Representable f) (ha : a < f) (hx : (a + f) / 2 < x) :
    round x ≠ a := by
  intro heq
  have hnear := round_nearest x hf
  rw [heq, abs_of_nonpos (by linarith)] at hnear
  rcases abs_cases (f - x) with ⟨habs, _⟩ | ⟨habs, _⟩ <;> linarith

theorem Representable.round_ne_of_below {a : ℚ} (hf : Representable f) (ha : f < a) (hx : x < (a + f) / 2) :
    round x ≠ a := by
  intro heq
  have hnear := round_nearest x hf
  rw [heq, abs_of_nonneg (by linarith)] at hnear
  rcases abs_cases (f - x) with ⟨habs, _⟩ | ⟨habs, _⟩ <;> linarith

theorem round_div_ne {a t : ℚ} (ha : Representable a) (hlo : 1 / 2 ≤ a) (hhi : a ≤ 1) (ht : Representable t)
    (hpos : 0 < t) (hne : t ≠ 1) : round (a / t) ≠ a := by
  obtain ⟨m, hm⟩ := ha.exists_half hlo
  have hm_lo : 2 ^ 52 ≤ m := by
    rw [hm, le_div_iff₀ (by norm_num)] at hlo
    have : (2 : ℚ) ^ 52 ≤ m := by norm_num at *; linarith
    exact_mod_cast this
  have hm_hi : m ≤ 2 ^ 53 := by
    rw [hm, div_le_one (by norm_num)] at hhi
    exact_mod_cast hhi
  rcases lt_or_gt_of_ne hne with hlt | hgt
  · have hgap := ht.le_of_lt_one hlt
    have hup : a + a / 2 ^ 53 < a / t := by
      rw [lt_div_iff₀ hpos]
      nlinarith
    rcases lt_or_eq_of_le hhi with ha1 | ha1
    · have hnext : Representable (a + 1 / 2 ^ 53) := by
        have hm1 : m < 2 ^ 53 := by
          rw [hm, div_lt_one (by norm_num)] at ha1
          exact_mod_cast ha1
        have := representable_div (m := m + 1) (by rw [abs_of_pos (by omega)]; omega)
        rw [hm, ← add_div]
        exact_mod_cast this
      exact hnext.round_ne_of_above (by linarith) (by linarith)
    have hnext : Representable (1 + 1 / 2 ^ 52) := ⟨2 ^ 52 + 1, -52, by norm_num, by norm_num, by norm_num⟩
    rw [ha1] at hup ⊢
    exact hnext.round_ne_of_above (by norm_num) (by linarith)
  · have hgap := ht.le_of_one_lt hgt
    have hprev : Representable (a - 1 / 2 ^ 53) := by
      have := representable_div (m := m - 1) (by rw [abs_of_pos (by omega)]; omega)
      rw [hm, ← sub_div]
      exact_mod_cast this
    have hdown : a / t < a - 1 / 2 ^ 54 := by
      rw [div_lt_iff₀ hpos]
      nlinarith
    exact hprev.round_ne_of_below (by linarith) (by linarith)

end

end Binary64
