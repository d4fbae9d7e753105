import Mathlib.Data.Rat.Floor
import Mathlib.Tactic.FieldSimp
import Mathlib.Tactic.Linarith
import Mathlib.Tactic.Positivity

/-! # Doubles

Lua 5.2 keeps every number as a C `double`, and `tonumber` reads a numeral
with `strtod`, which rounds the numeral's exact value to the nearest double: 53
significant bits, ties to even, a fixed unit of `2 ^ -1074` below the normal
range, and an infinity once the rounded value reaches `2 ^ 1024`. A double is
kept as `mant * 2 ^ exp`, an infinity as `± 2 ^ 1024`, which compares with
every finite double as the infinity does. The rounding depends only on the
value rounded, keeps an integer below `2 ^ 53`, and in the normal range misses
the value by at most `2 ^ -53` of it.
-/

namespace Vayu.Lua
set_option autoImplicit false

/-- A double, `mant * 2 ^ exp`. -/
structure Binary64 where
  mant : Int
  exp : Int
deriving DecidableEq, Repr

def Binary64.value (a : Binary64) : ℚ := a.mant * 2 ^ a.exp

def Binary64.scaled (a : Binary64) (m : Int) : Int := a.mant * 2 ^ (a.exp - m).toNat

/-- `luai_numle`: `a <= b`. -/
def Binary64.le (a b : Binary64) : Bool := a.scaled (min a.exp b.exp) ≤ b.scaled (min a.exp b.exp)

/-- `luai_numeq`: `a == b`. -/
def Binary64.eqv (a b : Binary64) : Bool := a.scaled (min a.exp b.exp) == b.scaled (min a.exp b.exp)

/-- `lua_number2integer` without the IEEE trick: the C cast, toward zero. -/
def Binary64.toInt (a : Binary64) : Int :=
  if 0 ≤ a.exp then a.mant * 2 ^ a.exp.toNat else a.mant.tdiv (2 ^ (-a.exp).toNat)

/-- The number of binary digits of `n`, for a `fuel` above it. -/
def bitLength : Nat → Nat → Nat
  | 0, _ => 0
  | fuel + 1, n => if n = 0 then 0 else bitLength fuel (n / 2) + 1

/-- The exponent `e` with `2 ^ e ≤ n / d < 2 ^ (e + 1)`: the difference of the
lengths, or one less. -/
def binade (n d : Nat) : Int :=
  let l : Int := (bitLength n n : Int) - bitLength d d
  if d * 2 ^ l.toNat ≤ n * 2 ^ (-l).toNat then l else l - 1

/-- `n / d` rounded to an integer, ties to even. -/
def roundHalfEven (n d : Nat) : Nat :=
  if d < 2 * (n % d) ∨ 2 * (n % d) = d ∧ n / d % 2 = 1 then n / d + 1 else n / d

/-- The double nearest `n / d`, for positive `n` and `d`: the unit of the last
place is `2 ^ (e - 52)` in the binade of `2 ^ e`, and `2 ^ -1074` below it. -/
def nearestDouble (n d : Nat) : Binary64 :=
  let s := max (binade n d - 52) (-1074)
  let m := roundHalfEven (n * 2 ^ (-s).toNat) (d * 2 ^ s.toNat)
  if 970 < s ∧ 2 ^ (1024 - s).toNat ≤ m then ⟨1, 1024⟩ else ⟨m, s⟩

/-! ## Comparisons -/

theorem zpow_toNat_div (b : ℚ) (e : Int) : b ^ e = b ^ e.toNat / b ^ (-e).toNat := by
  obtain ⟨k, rfl | rfl⟩ := Int.eq_nat_or_neg e
  · simp
  · rcases Nat.eq_zero_or_pos k with rfl | hk
    · simp
    · rw [Int.toNat_eq_zero.mpr (by omega), neg_neg, Int.toNat_natCast, zpow_neg, zpow_natCast]
      simp

theorem two_zpow (e : Int) : (2 : ℚ) ^ e = 2 ^ e.toNat / 2 ^ (-e).toNat := zpow_toNat_div 2 e

theorem Binary64.scaled_value (a : Binary64) {m : Int} (hm : m ≤ a.exp) :
    ((a.scaled m : Int) : ℚ) * 2 ^ m = a.value := by
  simp only [Binary64.scaled, Binary64.value]
  push_cast
  rw [mul_assoc, ← zpow_natCast, ← zpow_add₀ (by norm_num), Int.toNat_of_nonneg (by omega), sub_add_cancel]

theorem Binary64.eqv_iff {a b : Binary64} : a.eqv b = true ↔ a.value = b.value := by
  rw [Binary64.eqv, beq_iff_eq, ← a.scaled_value (min_le_left a.exp b.exp),
    ← b.scaled_value (min_le_right a.exp b.exp), mul_left_inj' (zpow_ne_zero _ (by norm_num))]
  exact_mod_cast Iff.rfl

theorem Binary64.le_iff {a b : Binary64} : a.le b = true ↔ a.value ≤ b.value := by
  rw [Binary64.le, decide_eq_true_iff, ← a.scaled_value (min_le_left a.exp b.exp),
    ← b.scaled_value (min_le_right a.exp b.exp), mul_le_mul_right (zpow_pos (by norm_num) _)]
  exact_mod_cast Iff.rfl

theorem Binary64.toInt_of_value {a : Binary64} {z : Int} (h : a.value = z) : a.toInt = z := by
  rw [Binary64.value, two_zpow] at h
  unfold Binary64.toInt
  split_ifs with he
  · rw [Int.toNat_eq_zero.mpr (show -a.exp ≤ 0 by omega), pow_zero, div_one] at h
    exact_mod_cast h
  · rw [Int.toNat_eq_zero.mpr (show a.exp ≤ 0 by omega), pow_zero, mul_one_div, div_eq_iff (by positivity)] at h
    rw [show a.mant = z * 2 ^ (-a.exp).toNat by exact_mod_cast h, Int.mul_tdiv_cancel _ (by positivity)]

/-! ## The binade -/

theorem bitLength_zero (fuel : Nat) : bitLength fuel 0 = 0 := by
  cases fuel <;> simp [bitLength]

theorem bitLength_spec (fuel : Nat) {n : Nat} (h : n < 2 ^ fuel) :
    n < 2 ^ bitLength fuel n ∧ (0 < n → 2 ^ bitLength fuel n ≤ 2 * n) := by
  induction fuel generalizing n with
  | zero => simp_all
  | succ fuel ih =>
    by_cases hn : n = 0
    · simp [hn, bitLength]
    obtain ⟨h1, h2⟩ := ih (n := n / 2) (by rw [pow_succ] at h; omega)
    rw [bitLength, if_neg hn, pow_succ]
    refine ⟨by omega, fun _ => ?_⟩
    rcases Nat.eq_zero_or_pos (n / 2) with h0 | h0
    · rw [h0, bitLength_zero]; omega
    · have := h2 h0; omega

theorem two_zpow_le_div_iff {n d : Nat} (hd : 0 < d) (e : Int) :
    (2 : ℚ) ^ e ≤ n / d ↔ d * 2 ^ e.toNat ≤ n * 2 ^ (-e).toNat := by
  rw [two_zpow, div_le_div_iff₀ (by positivity) (by positivity), mul_comm]
  exact_mod_cast Iff.rfl

theorem binade_spec {n d : Nat} (hn : 0 < n) (hd : 0 < d) :
    (2 : ℚ) ^ binade n d ≤ n / d ∧ (n : ℚ) / d < 2 ^ (binade n d + 1) := by
  obtain ⟨hn1, hn2⟩ := bitLength_spec n (Nat.lt_two_pow n)
  obtain ⟨hd1, hd2⟩ := bitLength_spec d (Nat.lt_two_pow d)
  have hdq : (0 : ℚ) < d := by exact_mod_cast hd
  have hl : (2 : ℚ) ^ ((bitLength n n : ℤ) - bitLength d d) = 2 ^ bitLength n n / 2 ^ bitLength d d := by
    rw [zpow_sub₀ two_ne_zero, zpow_natCast, zpow_natCast]
  have lower : (2 : ℚ) ^ ((bitLength n n : ℤ) - bitLength d d - 1) ≤ n / d := by
    rw [zpow_sub_one₀ two_ne_zero, hl,
      show (2 : ℚ) ^ bitLength n n / 2 ^ bitLength d d * 2⁻¹ = 2 ^ bitLength n n / (2 * 2 ^ bitLength d d) by ring,
      div_le_div_iff₀ (by positivity) hdq]
    exact_mod_cast calc 2 ^ bitLength n n * d
        ≤ 2 * n * d := Nat.mul_le_mul_right d (hn2 hn)
      _ ≤ 2 * n * 2 ^ bitLength d d := Nat.mul_le_mul_left _ hd1.le
      _ = n * (2 * 2 ^ bitLength d d) := by ring
  have upper : (n : ℚ) / d < 2 ^ ((bitLength n n : ℤ) - bitLength d d + 1) := by
    rw [zpow_add_one₀ two_ne_zero, hl, div_mul_eq_mul_div, div_lt_div_iff₀ hdq (by positivity)]
    exact_mod_cast calc n * 2 ^ bitLength d d
        ≤ n * (2 * d) := Nat.mul_le_mul_left n (hd2 hd)
      _ < 2 ^ bitLength n n * (2 * d) := Nat.mul_lt_mul_of_pos_right hn1 (by omega)
      _ = 2 ^ bitLength n n * 2 * d := by ring
  unfold binade
  dsimp only
  split_ifs with h
  · exact ⟨(two_zpow_le_div_iff hd _).mpr h, upper⟩
  · refine ⟨lower, ?_⟩
    rw [sub_add_cancel]
    exact lt_of_not_le fun h' => h ((two_zpow_le_div_iff hd _).mp h')

theorem binade_eq {n d : Nat} (hn : 0 < n) (hd : 0 < d) {e : Int}
    (h1 : (2 : ℚ) ^ e ≤ n / d) (h2 : (n : ℚ) / d < 2 ^ (e + 1)) : binade n d = e := by
  obtain ⟨h3, h4⟩ := binade_spec hn hd
  have := (zpow_lt_zpow_iff_right₀ (by norm_num : (1 : ℚ) < 2)).mp (h3.trans_lt h2)
  have := (zpow_lt_zpow_iff_right₀ (by norm_num : (1 : ℚ) < 2)).mp (h1.trans_lt h4)
  omega

/-! ## Rounding -/

theorem roundHalfEven_spec (n : Nat) {d : Nat} (hd : 0 < d) :
    2 * n ≤ 2 * (roundHalfEven n d * d) + d ∧ 2 * (roundHalfEven n d * d) ≤ 2 * n + d := by
  have := Nat.div_add_mod' n d
  have := Nat.mod_lt n hd
  unfold roundHalfEven
  split_ifs
  · rw [Nat.add_mul, Nat.one_mul]; omega
  · omega

theorem roundHalfEven_near (n : Nat) {d : Nat} (hd : 0 < d) : |(roundHalfEven n d : ℚ) - n / d| ≤ 1 / 2 := by
  obtain ⟨h1, h2⟩ := roundHalfEven_spec n hd
  have hdq : (0 : ℚ) < d := by exact_mod_cast hd
  have q1 : 2 * (n : ℚ) ≤ 2 * (roundHalfEven n d * d) + d := by exact_mod_cast h1
  have q2 : 2 * ((roundHalfEven n d : ℚ) * d) ≤ 2 * n + d := by exact_mod_cast h2
  rw [show (roundHalfEven n d : ℚ) - n / d = (roundHalfEven n d * d - n) / d by
    rw [sub_div, mul_div_cancel_right₀ _ hdq.ne'], abs_div,
    abs_of_pos hdq, div_le_iff₀ hdq, abs_le]
  constructor <;> linarith

theorem roundHalfEven_mul (n d : Nat) {c : Nat} (hc : 0 < c) : roundHalfEven (n * c) (d * c) = roundHalfEven n d := by
  unfold roundHalfEven
  rw [Nat.mul_div_mul_right _ _ hc, Nat.mul_mod_mul_right, ← Nat.mul_assoc]
  simp only [Nat.mul_lt_mul_right hc, Nat.mul_left_inj hc.ne']

theorem roundHalfEven_congr {n₁ d₁ n₂ d₂ : Nat} (hd₁ : 0 < d₁) (hd₂ : 0 < d₂) (h : n₁ * d₂ = n₂ * d₁) :
    roundHalfEven n₁ d₁ = roundHalfEven n₂ d₂ := by
  rw [← roundHalfEven_mul n₁ d₁ hd₂, ← roundHalfEven_mul n₂ d₂ hd₁, h, Nat.mul_comm d₁]

theorem roundHalfEven_one (n : Nat) : roundHalfEven n 1 = n := by
  simp [roundHalfEven, Nat.mod_one]

/-! ## The nearest double -/

/-- The double nearest `n / d` depends only on `n / d`. -/
theorem nearestDouble_congr {n₁ d₁ n₂ d₂ : Nat} (hn₁ : 0 < n₁) (hd₁ : 0 < d₁) (hn₂ : 0 < n₂) (hd₂ : 0 < d₂)
    (h : n₁ * d₂ = n₂ * d₁) : nearestDouble n₁ d₁ = nearestDouble n₂ d₂ := by
  have hb : binade n₁ d₁ = binade n₂ d₂ := by
    have hq : (n₁ : ℚ) / d₁ = n₂ / d₂ := by
      rw [div_eq_div_iff (by positivity) (by positivity)]
      exact_mod_cast h
    obtain ⟨h1, h2⟩ := binade_spec hn₂ hd₂
    exact binade_eq hn₁ hd₁ (hq ▸ h1) (hq ▸ h2)
  have hm : ∀ a b : Nat, roundHalfEven (n₁ * 2 ^ a) (d₁ * 2 ^ b) = roundHalfEven (n₂ * 2 ^ a) (d₂ * 2 ^ b) :=
    fun a b => roundHalfEven_congr (by positivity) (by positivity) (calc
      n₁ * 2 ^ a * (d₂ * 2 ^ b) = n₁ * d₂ * 2 ^ a * 2 ^ b := by ring
      _ = n₂ * d₁ * 2 ^ a * 2 ^ b := by rw [h]
      _ = n₂ * 2 ^ a * (d₁ * 2 ^ b) := by ring)
  simp only [nearestDouble, hb, hm]

/-- In the normal range the nearest double misses `n / d` by at most `2 ^ -53` of it. -/
theorem nearestDouble_near {n d : Nat} (hn : 0 < n) (hd : 0 < d) (hlo : (2 : ℚ) ^ (-1022 : ℤ) ≤ n / d)
    (hhi : (n : ℚ) / d < 2 ^ (1023 : ℤ)) : |(nearestDouble n d).value - n / d| ≤ n / d / 2 ^ 53 := by
  obtain ⟨h1, h2⟩ := binade_spec hn hd
  have two : (1 : ℚ) < 2 := by norm_num
  have he1 := (zpow_lt_zpow_iff_right₀ two).mp (hlo.trans_lt h2)
  have he2 := (zpow_lt_zpow_iff_right₀ two).mp (h1.trans_lt hhi)
  have hq : ((n * 2 ^ (-(binade n d - 52)).toNat : Nat) : ℚ) / (d * 2 ^ (binade n d - 52).toNat : Nat) =
      n / d * 2 ^ (-(binade n d - 52)) := by
    rw [two_zpow (-(binade n d - 52)), neg_neg]
    push_cast
    exact mul_div_mul_comm _ _ _ _
  have hx := hq ▸ roundHalfEven_near (n * 2 ^ (-(binade n d - 52)).toNat) (d := d * 2 ^ (binade n d - 52).toNat)
    (by positivity)
  unfold nearestDouble
  rw [max_eq_left (by omega), if_neg (fun h => by omega)]
  simp only [Binary64.value, Int.cast_natCast]
  have hs : (0 : ℚ) < 2 ^ (binade n d - 52) := zpow_pos (by norm_num) _
  calc |(roundHalfEven (n * 2 ^ (-(binade n d - 52)).toNat) (d * 2 ^ (binade n d - 52).toNat) : ℚ) *
          2 ^ (binade n d - 52) - n / d|
      = 2 ^ (binade n d - 52) * |(roundHalfEven (n * 2 ^ (-(binade n d - 52)).toNat)
          (d * 2 ^ (binade n d - 52).toNat) : ℚ) - n / d * 2 ^ (-(binade n d - 52))| := by
        rw [← abs_of_pos hs, ← abs_mul, abs_of_pos hs, mul_sub, zpow_neg, ← mul_assoc, mul_comm _ ((n : ℚ) / d),
          mul_assoc, mul_inv_cancel₀ hs.ne', mul_one, mul_comm]
    _ ≤ 2 ^ (binade n d - 52) * (1 / 2) := mul_le_mul_of_nonneg_left hx hs.le
    _ = 2 ^ binade n d / 2 ^ 53 := by
        rw [zpow_sub₀ two_ne_zero, show (2 : ℚ) ^ (52 : ℤ) = 2 ^ 52 from zpow_natCast 2 52]
        ring
    _ ≤ n / d / 2 ^ 53 := div_le_div_of_nonneg_right h1 (by positivity)

/-- An integer below `2 ^ 53` is a double. -/
theorem nearestDouble_nat {n : Nat} (hn : 0 < n) (h53 : n < 2 ^ 53) : (nearestDouble n 1).value = n := by
  obtain ⟨h1, h2⟩ := binade_spec hn one_pos
  have two : (1 : ℚ) < 2 := by norm_num
  have he0 : 0 ≤ binade n 1 := by
    have := (zpow_lt_zpow_iff_right₀ two).mp
      (show (2 : ℚ) ^ (0 : ℤ) < 2 ^ (binade n 1 + 1) from lt_of_le_of_lt (by simpa using hn) h2)
    omega
  have he52 := (zpow_lt_zpow_iff_right₀ two).mp
    (show (2 : ℚ) ^ binade n 1 < 2 ^ (53 : ℤ) from h1.trans_lt (by rw [Nat.cast_one, div_one, show (53 : ℤ) = (53 : ℕ) from rfl, zpow_natCast]; exact_mod_cast h53))
  unfold nearestDouble
  rw [max_eq_left (by omega), if_neg (fun h => by omega), Int.toNat_eq_zero.mpr (show binade n 1 - 52 ≤ 0 by omega),
    pow_zero, Nat.mul_one, roundHalfEven_one]
  simp only [Binary64.value]
  push_cast
  rw [← zpow_natCast, Int.toNat_of_nonneg (by omega), mul_assoc, ← zpow_add₀ (by norm_num), neg_add_cancel,
    zpow_zero, mul_one]

end Vayu.Lua
