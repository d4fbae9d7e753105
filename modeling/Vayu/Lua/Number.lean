import Vayu.Lua.Double
import Vayu.Lua.Pattern

/-! # Numerals and string positions

`tonumber` on a string, `luaO_str2d` of Lua 5.2: a decimal numeral as `strtod`
reads it, or a hexadecimal one as `lua_strx2number` does, with blanks around it
and nothing else. A number keeps its numeral, `mant * 10 ^ exp`, and Lua sees
the double `strtod` rounds it to: `==` and `<=` compare the doubles, and the
cast to an integer truncates the double. Numerals of one value give one double,
and an integer below `2 ^ 53` is its own double. Also `string.sub`, whose bounds
are such numbers cut to integers.
-/

namespace Vayu.Lua
set_option autoImplicit false

open Vayu.Buffer

/-- A number read from a numeral: `mant * 10 ^ exp`. -/
structure LuaNum where
  mant : Int
  exp : Int
deriving DecidableEq, Repr

/-- An integer as a number. -/
def LuaNum.ofInt (n : Int) : LuaNum := ⟨n, 0⟩

/-- The value of the numeral. -/
def LuaNum.value (a : LuaNum) : ℚ := a.mant * 10 ^ a.exp

/-- `lua_str2number`, `strtod`: the double nearest the value of the numeral. -/
def LuaNum.double (a : LuaNum) : Binary64 :=
  if a.mant = 0 then ⟨0, 0⟩ else
    let r := nearestDouble (a.mant.natAbs * 10 ^ a.exp.toNat) (10 ^ (-a.exp).toNat)
    if a.mant < 0 then ⟨-r.mant, r.exp⟩ else r

/-- `a <= b`. -/
def LuaNum.le (a b : LuaNum) : Bool := a.double.le b.double

/-- `a == b`. -/
def LuaNum.eqv (a b : LuaNum) : Bool := a.double.eqv b.double

/-- `lua_number2integer`. -/
def LuaNum.toInt (a : LuaNum) : Int := a.double.toInt

/-- The value of decimal digits. -/
def digitsValue (ds : Bytes) : Nat := ds.foldl (fun n c => 10 * n + (c.toNat - 48)) 0

/-- `luaO_hexavalue`. -/
def hexValue (c : UInt8) : Nat := if isDigit c then c.toNat - 48 else (toLower c).toNat - 87

/-- The value of hexadecimal digits. -/
def hexDigitsValue (ds : Bytes) : Nat := ds.foldl (fun n c => 16 * n + hexValue c) 0

/-- `isneg`: an optional sign. -/
def readSign : Bytes → Bool × Bytes
  | 45 :: s => (true, s)
  | 43 :: s => (false, s)
  | s => (false, s)

/-- An exponent after one of `letters`: an optional sign and at least one
digit; without a digit nothing is read. -/
def readExponent (letters : List UInt8) : Bytes → Int × Bytes
  | [] => (0, [])
  | c :: s =>
    if c ∈ letters then
      let t := readSign s
      let ds := t.2.span isDigit
      if ds.1 = [] then (0, c :: s) else ((if t.1 then -1 else 1) * digitsValue ds.1, ds.2)
    else (0, c :: s)

def signed (neg : Bool) (n : Nat) : Int := if neg then -n else n

/-- `strtod` on a decimal numeral: the number and what follows it. -/
def str2number (s : Bytes) : Option (LuaNum × Bytes) :=
  let t := readSign (s.dropWhile isSpace)
  let ip := t.2.span isDigit
  let fp := match ip.2 with
    | 46 :: u => u.span isDigit
    | u => ([], u)
  if ip.1 ++ fp.1 = [] then none
  else
    let e := readExponent [101, 69] fp.2
    some (⟨signed t.1 (digitsValue (ip.1 ++ fp.1)), e.1 - fp.1.length⟩, e.2)

/-- `lua_strx2number`: `0x`, hexadecimal digits with an optional fraction, and
an optional binary exponent `p`. -/
def strx2number (s : Bytes) : Option (LuaNum × Bytes) :=
  let t := readSign (s.dropWhile isSpace)
  match t.2 with
  | 48 :: x :: u =>
    if x = 120 ∨ x = 88 then
      let ip := u.span isXDigit
      let fp := match ip.2 with
        | 46 :: v => v.span isXDigit
        | v => ([], v)
      if ip.1 ++ fp.1 = [] then none
      else
        let e := readExponent [112, 80] fp.2
        let k := e.1 - 4 * fp.1.length
        some (⟨signed t.1 (hexDigitsValue (ip.1 ++ fp.1) * 2 ^ k.toNat * 5 ^ (-k).toNat), min k 0⟩, e.2)
    else none
  | _ => none

/-- `tonumber(s)` of a string, `luaO_str2d`: no `n` or `N` (`inf`, `nan`), an
`x` selects the hexadecimal reader, and only blanks may follow the numeral. -/
def toNumber (s : Bytes) : Option LuaNum :=
  if s.any (fun c => c == 110 || c == 78) then none
  else
    match (if s.any (fun c => c == 120 || c == 88) then strx2number s else str2number s) with
    | some (n, rest) => if rest.all isSpace then some n else none
    | none => none

/-- `posrelat` of `str_sub`: a negative position counts from the end. -/
def posrelat (pos : Int) (len : Nat) : Int :=
  if 0 ≤ pos then pos else if len < -pos then 0 else len + pos + 1

/-- `string.sub(s, i, j)`. -/
def luaSub (s : Bytes) (i j : Int) : Bytes :=
  let start := max (posrelat i s.length) 1
  let stop := min (posrelat j s.length) s.length
  if start ≤ stop then (s.drop (start - 1).toNat).take (stop - start + 1).toNat else []

/-! ## The double of a numeral -/

theorem LuaNum.abs_value (a : LuaNum) :
    |a.value| = ((a.mant.natAbs * 10 ^ a.exp.toNat : Nat) : ℚ) / (10 ^ (-a.exp).toNat : Nat) := by
  rw [LuaNum.value, abs_mul, abs_of_pos (zpow_pos (by norm_num : (0 : ℚ) < 10) a.exp), zpow_toNat_div, ← mul_div_assoc]
  push_cast
  rw [Nat.cast_natAbs, Int.cast_abs]

theorem LuaNum.value_neg_iff (a : LuaNum) : a.value < 0 ↔ a.mant < 0 := by
  rw [LuaNum.value, ← neg_pos, ← neg_mul, mul_pos_iff_of_pos_right (zpow_pos (by norm_num) _), neg_pos]
  exact_mod_cast Iff.rfl

theorem LuaNum.value_eq_zero_iff (a : LuaNum) : a.value = 0 ↔ a.mant = 0 := by
  rw [LuaNum.value, mul_eq_zero, or_iff_left (zpow_ne_zero _ (by norm_num))]
  exact_mod_cast Iff.rfl

/-- Numerals of one value are read as one double. -/
theorem LuaNum.double_congr {a b : LuaNum} (h : a.value = b.value) : a.double = b.double := by
  by_cases ha : a.mant = 0
  · have hb : b.mant = 0 := (b.value_eq_zero_iff).mp (h ▸ (a.value_eq_zero_iff).mpr ha)
    simp [LuaNum.double, ha, hb]
  have hb : b.mant ≠ 0 := fun hb => ha ((a.value_eq_zero_iff).mp (h ▸ (b.value_eq_zero_iff).mpr hb))
  have hsign : a.mant < 0 ↔ b.mant < 0 := by rw [← a.value_neg_iff, ← b.value_neg_iff, h]
  have hq := congrArg abs h
  rw [a.abs_value, b.abs_value, div_eq_div_iff (by positivity) (by positivity)] at hq
  have hr : nearestDouble (a.mant.natAbs * 10 ^ a.exp.toNat) (10 ^ (-a.exp).toNat) =
      nearestDouble (b.mant.natAbs * 10 ^ b.exp.toNat) (10 ^ (-b.exp).toNat) :=
    nearestDouble_congr (Nat.mul_pos (Int.natAbs_pos.mpr ha) (by positivity)) (by positivity)
      (Nat.mul_pos (Int.natAbs_pos.mpr hb) (by positivity)) (by positivity) (by exact_mod_cast hq)
  simp only [LuaNum.double, ha, hb, if_false, hr, hsign]

theorem LuaNum.ofInt_double {n : Nat} (h : n < 2 ^ 53) : (LuaNum.ofInt n).double.value = n := by
  rcases Nat.eq_zero_or_pos n with rfl | hn
  · simp [LuaNum.double, LuaNum.ofInt, Binary64.value]
  · have hne : (n : Int) ≠ 0 := by omega
    simp only [LuaNum.double, LuaNum.ofInt, hne, if_false, Int.natAbs_ofNat, Int.toNat_zero, neg_zero, pow_zero,
      Nat.mul_one, show ¬ (n : Int) < 0 by omega]
    exact nearestDouble_nat hn h

/-- In the normal range the double of a numeral misses its value by at most
`2 ^ -53` of it. -/
theorem LuaNum.double_near {a : LuaNum} (hlo : (2 : ℚ) ^ (-1022 : ℤ) ≤ |a.value|) (hhi : |a.value| < 2 ^ (1023 : ℤ)) :
    |a.double.value - a.value| ≤ |a.value| / 2 ^ 53 := by
  have ha : a.mant ≠ 0 := fun h => by
    rw [(a.value_eq_zero_iff).mpr h, abs_zero] at hlo
    exact absurd hlo (not_le.mpr (zpow_pos (by norm_num) _))
  rw [a.abs_value] at hlo hhi ⊢
  have hr := nearestDouble_near (Nat.mul_pos (Int.natAbs_pos.mpr ha) (by positivity)) (by positivity) hlo hhi
  by_cases hneg : a.mant < 0
  · have hv : a.value = -|a.value| := by rw [abs_of_neg ((a.value_neg_iff).mpr hneg), neg_neg]
    rw [hv, a.abs_value]
    simp only [LuaNum.double, ha, hneg, if_true, if_false, Binary64.value, Int.cast_neg, neg_mul]
    rw [sub_neg_eq_add, neg_add_eq_sub, abs_sub_comm]
    simpa only [Binary64.value] using hr
  · have hv : a.value = |a.value| := (abs_of_nonneg (not_lt.mp ((a.value_neg_iff).not.mpr hneg))).symm
    rw [hv, a.abs_value]
    simpa only [LuaNum.double, ha, hneg, if_false] using hr

theorem LuaNum.eqv_iff {a b : LuaNum} : a.eqv b = true ↔ a.double.value = b.double.value := Binary64.eqv_iff

-- `1.1000000000000001` and `1.1` are read as one double, and so compare equal.
example : (LuaNum.mk 11000000000000001 (-16)).eqv ⟨11, -1⟩ = true := by decide

theorem LuaNum.eqv_of_value {a b : LuaNum} (h : a.value = b.value) : a.eqv b = true :=
  LuaNum.eqv_iff.mpr (by rw [LuaNum.double_congr h])

theorem LuaNum.le_self (a : LuaNum) : a.le a = true := Binary64.le_iff.mpr le_rfl

theorem LuaNum.toInt_ofInt {n : Nat} (h : n < 2 ^ 53) : (LuaNum.ofInt n).toInt = n :=
  Binary64.toInt_of_value (by rw [LuaNum.ofInt_double h]; rfl)

end Vayu.Lua
