import Mathlib
import LayeredConfig.Number.Binary64

/-! Doubles that hold integers. A finite double is worth `significand * 2 ^ exponent`
(`toRat`). Every natural number below `2 ^ 53`, with either sign, is a double
exactly (`round_exact`), and every one from `2 ^ 53` on rounds to a positive
double of exponent field at least `1076`, an integer at least `2 ^ 53`, or to
infinity (`big_ofNat`).

Rounding depends on the value alone: scaling the numerator by a power of two and
the exponent back gives the same double (`round_scale`). So a product or a sum of
two doubles that hold natural numbers is the double nearest the exact natural
result, `ofNat` of it, whatever its size (`mul_eq_ofNat`, `add_eq_ofNat`). -/

namespace LayeredConfig

namespace Binary64

/-- The exact value of a finite double. -/
def toRat (x : Binary64) : ℚ := (x.toSignedScaled.1 : ℚ) * 2 ^ x.toSignedScaled.2

/-! ### Fields -/

theorem exponentField_eq (x : Binary64) : x.exponentField = x.bits.toNat / 2 ^ 52 % 2 ^ 11 := by
  rw [exponentField, UInt64.toNat_and, UInt64.toNat_shiftRight, ← Nat.and_two_pow_sub_one_eq_mod,
    Nat.shiftRight_eq_div_pow]
  rfl

theorem fractionField_eq (x : Binary64) : x.fractionField = x.bits.toNat % 2 ^ 52 := by
  rw [fractionField, UInt64.toNat_and, ← Nat.and_two_pow_sub_one_eq_mod]
  rfl

theorem signField_eq (x : Binary64) : x.signField = decide (2 ^ 63 ≤ x.bits.toNat) := by
  have h := x.bits.toNat_lt
  have hshift : (x.bits >>> 63).toNat = x.bits.toNat / 2 ^ 63 := by
    rw [UInt64.toNat_shiftRight, Nat.shiftRight_eq_div_pow]
    rfl
  rw [signField, Bool.eq_iff_iff, beq_iff_eq, decide_eq_true_iff, ← UInt64.toNat_inj, hshift,
    UInt64.toNat_one]
  omega

theorem fractionField_lt (x : Binary64) : x.fractionField < 2 ^ 52 := by
  rw [fractionField_eq]
  exact Nat.mod_lt _ (by norm_num)

theorem bits_eq_fields (x : Binary64) :
    x.bits.toNat = (if x.signField then 2 ^ 63 else 0) + x.exponentField * 2 ^ 52 + x.fractionField := by
  have h := x.bits.toNat_lt
  rw [signField_eq, exponentField_eq, fractionField_eq]
  split <;> rename_i hs <;> simp only [decide_eq_true_eq] at hs <;> omega

section Fields

variable (negative : Bool) {biased fraction : Nat} (hb : biased < 2 ^ 11) (hf : fraction < 2 ^ 52)
include hb hf

theorem bits_ofFields :
    (ofFields negative biased fraction).bits.toNat =
      (if negative then 2 ^ 63 else 0) + biased * 2 ^ 52 + fraction := by
  rw [ofFields, UInt64.toNat_ofNat', Nat.mod_eq_of_lt]
  · simp [Nat.pow_eq]
  · cases negative <;> simp [Nat.pow_eq] <;> omega

@[simp] theorem exponentField_ofFields : (ofFields negative biased fraction).exponentField = biased := by
  rw [exponentField_eq, bits_ofFields negative hb hf]
  cases negative <;> simp <;> omega

@[simp] theorem fractionField_ofFields : (ofFields negative biased fraction).fractionField = fraction := by
  rw [fractionField_eq, bits_ofFields negative hb hf]
  cases negative <;> simp <;> omega

@[simp] theorem signField_ofFields : (ofFields negative biased fraction).signField = negative := by
  rw [signField_eq, bits_ofFields negative hb hf]
  cases negative <;> simp <;> omega

end Fields

theorem bits_neg (x : Binary64) : (neg x).bits.toNat = x.bits.toNat ^^^ 2 ^ 63 := by
  rw [neg, UInt64.toNat_xor]
  rfl

@[simp] theorem fractionField_neg (x : Binary64) : (neg x).fractionField = x.fractionField := by
  rw [fractionField_eq, fractionField_eq, bits_neg, Nat.xor_mod_two_pow]
  norm_num

@[simp] theorem exponentField_neg (x : Binary64) : (neg x).exponentField = x.exponentField := by
  rw [exponentField_eq, exponentField_eq, bits_neg, ← Nat.shiftRight_eq_div_pow,
    Nat.shiftRight_xor_distrib, Nat.xor_mod_two_pow, Nat.shiftRight_eq_div_pow]
  norm_num [Nat.shiftRight_eq_div_pow]

@[simp] theorem signField_neg (x : Binary64) : (neg x).signField = !x.signField := by
  have h := x.bits.toNat_lt
  have htop : (x.bits.toNat ^^^ 2 ^ 63) / 2 ^ 63 = x.bits.toNat / 2 ^ 63 ^^^ 1 := by
    rw [← Nat.shiftRight_eq_div_pow, Nat.shiftRight_xor_distrib, Nat.shiftRight_eq_div_pow]
    norm_num [Nat.shiftRight_eq_div_pow]
  have hlt : (x.bits.toNat ^^^ 2 ^ 63) < 2 ^ 64 := Nat.xor_lt_two_pow h (by norm_num)
  rw [signField_eq, signField_eq, bits_neg]
  rcases (by omega : x.bits.toNat / 2 ^ 63 = 0 ∨ x.bits.toNat / 2 ^ 63 = 1) with h0 | h1
  · rw [h0] at htop
    simp only [Nat.zero_xor] at htop
    simp only [Bool.eq_not_iff, ne_eq, decide_eq_decide]
    omega
  · rw [h1] at htop
    simp only [Nat.xor_self] at htop
    simp only [Bool.eq_not_iff, ne_eq, decide_eq_decide]
    omega

theorem ext_fields {x y : Binary64} (hs : x.signField = y.signField)
    (he : x.exponentField = y.exponentField) (hf : x.fractionField = y.fractionField) : x = y := by
  have h : x.bits.toNat = y.bits.toNat := by rw [bits_eq_fields, bits_eq_fields y, hs, he, hf]
  cases x
  cases y
  simp only [mk.injEq]
  exact UInt64.toNat_inj.1 h

/-! ### Rounding -/

/-- A quotient rounded to the nearest natural number, ties to the even one. -/
def roundQuot (n d : Nat) : Nat :=
  if d < 2 * (n % d) ∨ (2 * (n % d) = d ∧ n / d % 2 = 1) then n / d + 1 else n / d

/-- `num / den` times `2 ^ shift`, as a numerator and a denominator. -/
def scaledRatio (num den : Nat) (shift : Int) : Nat × Nat :=
  (if 0 ≤ shift then num * Nat.pow 2 shift.toNat else num,
    if 0 ≤ shift then den else den * Nat.pow 2 (-shift).toNat)

/-- The exponent of the last significand bit of a rounded value: 52 bits below
its leading one, but never below that of the least subnormal. -/
def unitExponent (num den : Nat) (scale : Int) : Int := max (floorLog2Ratio num den + scale - 52) (-1074)

theorem round_eq (negative : Bool) {num den : Nat} (hnum : num ≠ 0) (hden : den ≠ 0) (scale : Int) :
    round negative num den scale =
      pack negative
        (roundQuot (scaledRatio num den (scale - unitExponent num den scale)).1
          (scaledRatio num den (scale - unitExponent num den scale)).2)
        (unitExponent num den scale) := by
  rw [round, if_neg (by omega)]
  rfl

theorem roundQuot_mul (n d : Nat) {c : Nat} (hc : 0 < c) : roundQuot (n * c) (d * c) = roundQuot n d := by
  unfold roundQuot
  rw [Nat.mul_div_mul_right _ _ hc, Nat.mul_mod_mul_right]
  have e1 : 2 * (n % d * c) = 2 * (n % d) * c := by rw [Nat.mul_assoc]
  have i1 : d * c < 2 * (n % d) * c ↔ d < 2 * (n % d) := Nat.mul_lt_mul_right hc
  have i2 : 2 * (n % d) * c = d * c ↔ 2 * (n % d) = d := Nat.mul_left_inj (by omega)
  simp only [e1, i1, i2]

@[simp] theorem roundQuot_one (n : Nat) : roundQuot n 1 = n := by
  simp [roundQuot, Nat.mod_one]

theorem roundQuot_bounds (n d : Nat) : n / d ≤ roundQuot n d ∧ roundQuot n d ≤ n / d + 1 := by
  unfold roundQuot
  split <;> omega

/-- Scaling the numerator by `2 ^ k` and the shift back by `k` scales both parts
of the ratio alike. -/
theorem scaledRatio_two_pow (num den k : Nat) (t : Int) :
    ∃ c, 0 < c ∧ (scaledRatio (num * 2 ^ k) den t).1 = (scaledRatio num den (t + k)).1 * c ∧
      (scaledRatio (num * 2 ^ k) den t).2 = (scaledRatio num den (t + k)).2 * c := by
  simp only [scaledRatio, Nat.pow_eq]
  by_cases ht : 0 ≤ t
  · have e : (t + k).toNat = t.toNat + k := by omega
    refine ⟨1, Nat.one_pos, ?_, ?_⟩
    · rw [if_pos ht, if_pos (by omega), e, pow_add]
      ring
    · rw [if_pos ht, if_pos (by omega), Nat.mul_one]
  by_cases htk : 0 ≤ t + k
  · have e : k = (t + k).toNat + (-t).toNat := by omega
    refine ⟨2 ^ (-t).toNat, by positivity, ?_, ?_⟩
    · rw [if_neg ht, if_pos htk]
      conv_lhs => rw [e, pow_add]
      ring
    · rw [if_neg ht, if_pos htk]
  · have e : (-t).toNat = (-(t + k)).toNat + k := by omega
    refine ⟨2 ^ k, by positivity, ?_, ?_⟩
    · rw [if_neg ht, if_neg htk]
    · rw [if_neg ht, if_neg htk, e, pow_add]
      ring

theorem log2_one : Nat.log2 1 = 0 := by
  simpa using Nat.log2_two_pow (n := 0)

theorem floorLog2Ratio_one {n : Nat} (hn : n ≠ 0) : floorLog2Ratio n 1 = n.log2 := by
  have hle : 2 ^ n.log2 ≤ n := Nat.log2_self_le hn
  simp only [floorLog2Ratio, log2_one, Nat.zero_le, if_true, Nat.sub_zero, Nat.one_mul, Nat.pow_eq]
  rw [if_pos hle]

theorem log2_mul_two_pow {n : Nat} (hn : n ≠ 0) (k : Nat) : (n * 2 ^ k).log2 = n.log2 + k := by
  have hnk : n * 2 ^ k ≠ 0 := by positivity
  apply le_antisymm
  · rw [← Nat.lt_succ_iff, Nat.log2_lt hnk]
    calc n * 2 ^ k < 2 ^ (n.log2 + 1) * 2 ^ k :=
          Nat.mul_lt_mul_of_pos_right Nat.lt_log2_self (by positivity)
      _ = 2 ^ (n.log2 + k).succ := by rw [Nat.succ_eq_add_one, pow_succ, pow_succ, pow_add]; ring
  · rw [Nat.le_log2 hnk, pow_add]
    exact Nat.mul_le_mul_right _ (Nat.log2_self_le hn)

/-- Rounding depends on the value alone. -/
theorem round_scale (negative : Bool) {n : Nat} (hn : n ≠ 0) (k : Nat) (scale : Int) :
    round negative (n * 2 ^ k) 1 scale = round negative n 1 (scale + k) := by
  have hnk : n * 2 ^ k ≠ 0 := by positivity
  have hunit : unitExponent (n * 2 ^ k) 1 scale = unitExponent n 1 (scale + k) := by
    simp only [unitExponent, floorLog2Ratio_one hn, floorLog2Ratio_one hnk, log2_mul_two_pow hn]
    congr 1
    push_cast
    ring
  rw [round_eq negative hnk one_ne_zero, round_eq negative hn one_ne_zero, hunit]
  obtain ⟨c, hc, h1, h2⟩ := scaledRatio_two_pow n 1 k (scale - unitExponent n 1 (scale + k))
  have hshift : scale - unitExponent n 1 (scale + k) + k = scale + k - unitExponent n 1 (scale + k) := by
    ring
  rw [h1, h2, roundQuot_mul _ _ hc, hshift]

theorem round_zero (negative : Bool) (den : Nat) (scale : Int) :
    round negative 0 den scale = zero negative := by
  simp [round]

theorem ofNat_zero : ofNat 0 = zero false := round_zero false 1 0

/-- A ratio with denominator one whose value is a natural number rounds as that
number does. -/
theorem round_eq_ofNat {n v : Nat} {scale : Int} (h : (n : ℚ) * 2 ^ scale = v) :
    round false n 1 scale = ofNat v := by
  by_cases hn : n = 0
  · subst hn
    have hv : v = 0 := by exact_mod_cast (by simpa using h.symm : (v : ℚ) = 0)
    rw [hv, round_zero, ofNat_zero]
  rcases le_or_gt 0 scale with hs | hs
  · obtain ⟨t, rfl⟩ := Int.eq_ofNat_of_zero_le hs
    have hv : n * 2 ^ t = v := by exact_mod_cast (by simpa using h : (n : ℚ) * 2 ^ t = v)
    rw [ofNat, ← hv, round_scale false hn]
    simp
  · obtain ⟨t, ht⟩ : ∃ t : Nat, scale = -t := ⟨(-scale).toNat, by omega⟩
    subst ht
    have hv : n = v * 2 ^ t := by
      have h' : (n : ℚ) = v * 2 ^ t := by
        rw [← h, zpow_neg, zpow_natCast, mul_assoc, inv_mul_cancel₀ (by positivity), mul_one]
      exact_mod_cast h'
    have hv0 : v ≠ 0 := by rintro rfl; simp_all
    rw [hv, round_scale false hv0, ofNat]
    simp

/-! ### Packing -/

theorem pack_normal (negative : Bool) {m : Nat} {q : Int} (hm : 2 ^ 52 ≤ m) (hm' : m < 2 ^ 53)
    (hq : q + 1075 < 2047) : pack negative m q = ofFields negative (q + 1075).toNat (m - 2 ^ 52) := by
  have hne : m ≠ Nat.pow 2 53 := by simp only [Nat.pow_eq]; omega
  simp only [pack, hne, if_false, Nat.pow_eq]
  rw [if_neg (by omega), if_neg (by omega)]

theorem pack_overflow (negative : Bool) {m : Nat} {q : Int} (hm : 2 ^ 52 ≤ m) (hm' : m < 2 ^ 53)
    (hq : 2047 ≤ q + 1075) : pack negative m q = infinity negative := by
  have hne : m ≠ Nat.pow 2 53 := by simp only [Nat.pow_eq]; omega
  simp only [pack, hne, if_false, Nat.pow_eq]
  rw [if_neg (by omega), if_pos hq]

theorem pack_carry (negative : Bool) (q : Int) : pack negative (2 ^ 53) q = pack negative (2 ^ 52) (q + 1) := by
  simp [pack, Nat.pow_eq]

/-! ### Natural numbers -/

theorem shifted_bounds {n : Nat} (hn : n ≠ 0) (h : n < 2 ^ 53) :
    n.log2 ≤ 52 ∧ 2 ^ 52 ≤ n * 2 ^ (52 - n.log2) ∧ n * 2 ^ (52 - n.log2) < 2 ^ 53 := by
  have hL : n.log2 ≤ 52 := by have := (Nat.log2_lt hn).2 h; omega
  have e52 : 2 ^ 52 = 2 ^ n.log2 * 2 ^ (52 - n.log2) := by rw [← pow_add]; congr 1; omega
  have e53 : 2 ^ 53 = 2 ^ (n.log2 + 1) * 2 ^ (52 - n.log2) := by rw [← pow_add]; congr 1; omega
  exact ⟨hL, e52 ▸ Nat.mul_le_mul_right _ (Nat.log2_self_le hn),
    e53 ▸ Nat.mul_lt_mul_of_pos_right Nat.lt_log2_self (by positivity)⟩

theorem round_of_lt (negative : Bool) {n : Nat} (hn : n ≠ 0) (h : n < 2 ^ 53) :
    round negative n 1 0 = ofFields negative (n.log2 + 1023) (n * 2 ^ (52 - n.log2) - 2 ^ 52) := by
  obtain ⟨hL, hm, hm'⟩ := shifted_bounds hn h
  have hunit : unitExponent n 1 0 = (n.log2 : Int) - 52 := by
    simp only [unitExponent, floorLog2Ratio_one hn]
    omega
  rw [round_eq negative hn one_ne_zero, hunit]
  have hshift : (0 : Int) - ((n.log2 : Int) - 52) = ((52 - n.log2 : Nat) : Int) := by omega
  simp only [scaledRatio, hshift, Nat.cast_nonneg, if_true, Int.toNat_natCast, Nat.pow_eq, roundQuot_one]
  rw [pack_normal negative hm hm' (by omega)]
  congr 1
  omega

theorem round_fields (negative : Bool) {n : Nat} (hn : n ≠ 0) (h : n < 2 ^ 53) :
    (round negative n 1 0).signField = negative ∧ (round negative n 1 0).exponentField = n.log2 + 1023 ∧
      (round negative n 1 0).fractionField = n * 2 ^ (52 - n.log2) - 2 ^ 52 := by
  obtain ⟨hL, hm, hm'⟩ := shifted_bounds hn h
  have hb : n.log2 + 1023 < 2 ^ 11 := by omega
  have hf : n * 2 ^ (52 - n.log2) - 2 ^ 52 < 2 ^ 52 := by omega
  rw [round_of_lt negative hn h]
  exact ⟨signField_ofFields _ hb hf, exponentField_ofFields _ hb hf, fractionField_ofFields _ hb hf⟩

theorem significand_round (negative : Bool) {n : Nat} (hn : n ≠ 0) (h : n < 2 ^ 53) :
    (round negative n 1 0).significand = n * 2 ^ (52 - n.log2) := by
  obtain ⟨-, hm, -⟩ := shifted_bounds hn h
  obtain ⟨-, he, hf⟩ := round_fields negative hn h
  rw [significand, he, hf, if_neg (by omega), Nat.pow_eq, Nat.sub_add_cancel hm]

theorem exponent_round (negative : Bool) {n : Nat} (hn : n ≠ 0) (h : n < 2 ^ 53) :
    (round negative n 1 0).exponent = (n.log2 : Int) - 52 := by
  obtain ⟨-, he, -⟩ := round_fields negative hn h
  rw [exponent, he, if_neg (by omega)]
  omega

theorem zero_fields (negative : Bool) : (zero negative).signField = negative ∧
    (zero negative).exponentField = 0 ∧ (zero negative).fractionField = 0 :=
  ⟨signField_ofFields _ (by norm_num) (by norm_num), exponentField_ofFields _ (by norm_num) (by norm_num),
    fractionField_ofFields _ (by norm_num) (by norm_num)⟩

theorem toRat_eq (x : Binary64) :
    x.toRat = (if x.signField then -(x.significand : ℚ) else x.significand) * 2 ^ x.exponent := by
  simp only [toRat, toSignedScaled]
  split <;> simp

/-- The significand and exponent of a positive natural number below `2 ^ 53`
multiply back to it. -/
theorem significand_mul_round (negative : Bool) {n : Nat} (hn : n ≠ 0) (h : n < 2 ^ 53) :
    ((round negative n 1 0).significand : ℚ) * 2 ^ (round negative n 1 0).exponent = n := by
  obtain ⟨hL, -, -⟩ := shifted_bounds hn h
  rw [significand_round negative hn h, exponent_round negative hn h,
    show (n.log2 : Int) - 52 = -((52 - n.log2 : Nat) : Int) by omega, zpow_neg, zpow_natCast]
  push_cast
  rw [mul_assoc, mul_inv_cancel₀ (by positivity), mul_one]

/-- Every natural number below `2 ^ 53`, with either sign, is a double exactly. -/
theorem round_exact (negative : Bool) {n : Nat} (h : n < 2 ^ 53) :
    (round negative n 1 0).isFinite = true ∧ (round negative n 1 0).signField = negative ∧
      (round negative n 1 0).toRat = if negative then -(n : ℚ) else n := by
  by_cases hn : n = 0
  · obtain ⟨hs, he, hf⟩ := zero_fields negative
    subst hn
    simp [round_zero, isFinite, toRat_eq, significand, hs, he, hf]
  obtain ⟨hL, -, -⟩ := shifted_bounds hn h
  obtain ⟨hs, he, -⟩ := round_fields negative hn h
  refine ⟨by simp [isFinite, he]; omega, hs, ?_⟩
  rw [toRat_eq, hs]
  have hv := significand_mul_round negative hn h
  cases negative
  · simpa using hv
  · simp only [if_true, neg_mul, hv]

theorem ofNat_exact {n : Nat} (h : n < 2 ^ 53) :
    (ofNat n).isFinite = true ∧ (ofNat n).signField = false ∧ (ofNat n).toRat = n := by
  simpa [ofNat] using round_exact false h

/-- A positive double of exponent field at least `1076`: an integer at least
`2 ^ 53`, or positive infinity. -/
def Big (x : Binary64) : Prop :=
  x.signField = false ∧ x.isNaN = false ∧ 1076 ≤ x.exponentField

theorem infinity_fields : (infinity false).signField = false ∧ (infinity false).exponentField = 2047 ∧
    (infinity false).fractionField = 0 :=
  ⟨signField_ofFields _ (by norm_num) (by norm_num), exponentField_ofFields _ (by norm_num) (by norm_num),
    fractionField_ofFields _ (by norm_num) (by norm_num)⟩

theorem big_infinity : Big (infinity false) := by
  obtain ⟨hs, he, hf⟩ := infinity_fields
  exact ⟨hs, by simp [isNaN, he, hf], by omega⟩

theorem Big.eq_infinity {x : Binary64} (h : Big x) (hx : x.isFinite = false) : x = infinity false := by
  obtain ⟨hs, he, hf⟩ := infinity_fields
  obtain ⟨hxs, hxn, -⟩ := h
  have hxe : x.exponentField = 2047 := by simpa [isFinite] using hx
  have hxf : x.fractionField = 0 := by simpa [isNaN, hxe] using hxn
  exact ext_fields (by rw [hxs, hs]) (by rw [hxe, he]) (by rw [hxf, hf])

/-- The value read off the fields of a big double is a natural number at least
`2 ^ 53`. -/
theorem Big.exists_toRat {x : Binary64} (h : Big x) :
    ∃ v : Nat, 2 ^ 53 ≤ v ∧ x.toRat = v := by
  obtain ⟨hs, -, he⟩ := h
  refine ⟨(x.fractionField + 2 ^ 52) * 2 ^ (x.exponentField - 1075), ?_, ?_⟩
  · have h2 : 2 ≤ 2 ^ (x.exponentField - 1075) :=
      le_self_pow₀ (by norm_num) (by omega)
    calc 2 ^ 53 = 2 ^ 52 * 2 := by norm_num
      _ ≤ (x.fractionField + 2 ^ 52) * 2 ^ (x.exponentField - 1075) :=
        Nat.mul_le_mul (by omega) h2
  · have hne : x.exponentField ≠ 0 := by omega
    have hz : (x.exponentField : Int) - 1075 = ((x.exponentField - 1075 : Nat) : Int) := by omega
    rw [toRat_eq, hs, if_neg Bool.false_ne_true, significand, exponent, if_neg hne, if_neg hne, hz,
      zpow_natCast, Nat.pow_eq]
    push_cast
    ring

theorem big_pack {m : Nat} {q : Int} (hm : 2 ^ 52 ≤ m) (hm' : m ≤ 2 ^ 53) (hq : 1 ≤ q) :
    Big (pack false m q) := by
  -- a significand that rounded up to `2 ^ 53` carries into the exponent
  obtain ⟨m, q, hm, hm', hq, hpack⟩ : ∃ m' q', 2 ^ 52 ≤ m' ∧ m' < 2 ^ 53 ∧ 1 ≤ q' ∧
      pack false m q = pack false m' q' := by
    rcases Nat.lt_or_ge m (2 ^ 53) with hlt | hge
    · exact ⟨m, q, hm, hlt, hq, rfl⟩
    · have hm53 : m = 2 ^ 53 := by omega
      exact ⟨2 ^ 52, q + 1, le_rfl, by norm_num, by omega, by rw [hm53, pack_carry]⟩
  rw [hpack]
  by_cases hover : 2047 ≤ q + 1075
  · rw [pack_overflow false hm hm' hover]
    exact big_infinity
  · have hb : (q + 1075).toNat < 2 ^ 11 := by omega
    have hf : m - 2 ^ 52 < 2 ^ 52 := by omega
    rw [pack_normal false hm hm' (by omega)]
    refine ⟨signField_ofFields _ hb hf, ?_, ?_⟩
    · rw [isNaN, exponentField_ofFields false hb hf, Bool.and_eq_false_iff]
      left
      simp only [beq_eq_false_iff_ne]
      omega
    · rw [exponentField_ofFields false hb hf]
      omega

/-- Every natural number from `2 ^ 53` on rounds to a big double. -/
theorem big_ofNat {n : Nat} (h : 2 ^ 53 ≤ n) : Big (ofNat n) := by
  have hn : n ≠ 0 := by positivity
  have hL : 53 ≤ n.log2 := (Nat.le_log2 hn).2 h
  have hunit : unitExponent n 1 0 = (n.log2 : Int) - 52 := by
    simp only [unitExponent, floorLog2Ratio_one hn]
    omega
  rw [ofNat, round_eq false hn one_ne_zero, hunit]
  have hshift : (0 : Int) - ((n.log2 : Int) - 52) = -((n.log2 - 52 : Nat) : Int) := by omega
  simp only [scaledRatio, hshift, Left.nonneg_neg_iff, Nat.cast_nonpos, neg_neg, Int.toNat_natCast,
    Nat.one_mul, Nat.pow_eq]
  rw [if_neg (by omega), if_neg (by omega)]
  have hpos : 0 < 2 ^ (n.log2 - 52) := by positivity
  have hlo : 2 ^ 52 ≤ n / 2 ^ (n.log2 - 52) := by
    rw [Nat.le_div_iff_mul_le hpos, ← pow_add, show 52 + (n.log2 - 52) = n.log2 by omega]
    exact Nat.log2_self_le hn
  have hhi : n / 2 ^ (n.log2 - 52) < 2 ^ 53 := by
    rw [Nat.div_lt_iff_lt_mul hpos, ← pow_add, show 53 + (n.log2 - 52) = n.log2 + 1 by omega]
    exact Nat.lt_log2_self
  obtain ⟨hq1, hq2⟩ := roundQuot_bounds n (2 ^ (n.log2 - 52))
  exact big_pack (by omega) (by omega) (by omega)

/-! ### Integer arithmetic -/

theorem two_pow_toNat_mul {e f : Int} (h : e ≤ f) : (2 : ℚ) ^ (f - e).toNat * 2 ^ e = 2 ^ f := by
  rw [← zpow_natCast, Int.toNat_of_nonneg (by omega), ← zpow_add₀ two_ne_zero, sub_add_cancel]

theorem isNaN_of_isFinite {x : Binary64} (h : x.isFinite = true) : x.isNaN = false := by
  simp_all [isNaN, isFinite]

theorem isInfinite_of_isFinite {x : Binary64} (h : x.isFinite = true) : x.isInfinite = false := by
  simp_all [isInfinite, isFinite]

section Arithmetic

variable {x y : Binary64} {a b : Nat} (hx : x.isFinite = true) (hy : y.isFinite = true)
  (hxs : x.signField = false) (hys : y.signField = false) (ha : x.toRat = a) (hb : y.toRat = b)
include hx hy hxs hys ha hb

/-- The product of two doubles that hold natural numbers is their exact product
rounded once. -/
theorem mul_eq_ofNat : x * y = ofNat (a * b) := by
  rw [toRat_eq, hxs, if_neg Bool.false_ne_true] at ha
  rw [toRat_eq, hys, if_neg Bool.false_ne_true] at hb
  show mul x y = _
  simp only [mul, isNaN_of_isFinite hx, isNaN_of_isFinite hy, isInfinite_of_isFinite hx,
    isInfinite_of_isFinite hy, hxs, hys, Bool.or_false, Bool.false_eq_true, if_false, bne_self_eq_false]
  apply round_eq_ofNat
  push_cast
  rw [zpow_add₀ two_ne_zero, ← ha, ← hb]
  ring

/-- The sum of two doubles that hold natural numbers is their exact sum rounded
once. -/
theorem add_eq_ofNat : x + y = ofNat (a + b) := by
  rw [toRat_eq, hxs, if_neg Bool.false_ne_true] at ha
  rw [toRat_eq, hys, if_neg Bool.false_ne_true] at hb
  show add x y = _
  simp only [add, isNaN_of_isFinite hx, isNaN_of_isFinite hy, isInfinite_of_isFinite hx,
    isInfinite_of_isFinite hy, toSignedScaled, hxs, hys, Bool.or_false, Bool.false_eq_true, if_false]
  set e := min x.exponent y.exponent
  set n := x.significand * 2 ^ (x.exponent - e).toNat + y.significand * 2 ^ (y.exponent - e).toNat
  have hn : (x.significand : Int) * (Nat.pow 2 (x.exponent - e).toNat : Nat) +
      y.significand * (Nat.pow 2 (y.exponent - e).toNat : Nat) = (n : Int) := by
    simp only [n, Nat.pow_eq]
    push_cast
    ring
  have hval : (n : ℚ) * 2 ^ e = a + b := by
    simp only [n]
    push_cast
    rw [← ha, ← hb, add_mul, mul_assoc, mul_assoc, two_pow_toNat_mul (min_le_left _ _),
      two_pow_toNat_mul (min_le_right _ _)]
  rw [hn, Int.natAbs_natCast, decide_eq_false (by omega : ¬ (n : Int) < 0)]
  split_ifs with h0
  · have hab : a + b = 0 := by
      have : ((a + b : Nat) : ℚ) = 0 := by push_cast; rw [← hval, (by omega : n = 0)]; simp
      exact_mod_cast this
    rw [hab, ofNat_zero]
    rfl
  · exact round_eq_ofNat (by push_cast; exact hval)

end Arithmetic

theorem isZero_ofNat {n : Nat} (hn : n ≠ 0) (h : n < 2 ^ 53) : (ofNat n).isZero = false := by
  simp [ofNat, isZero, (round_fields false hn h).2.1]

theorem infinity_flags : (infinity false).isNaN = false ∧ (infinity false).isInfinite = true ∧
    (infinity false).isZero = false := by
  obtain ⟨-, he, hf⟩ := infinity_fields
  simp [isNaN, isInfinite, isZero, he, hf]

theorem infinity_mul {y : Binary64} (hy : y.isFinite = true) (hyz : y.isZero = false)
    (hys : y.signField = false) : infinity false * y = infinity false := by
  obtain ⟨hn, hi, hz⟩ := infinity_flags
  show mul _ y = _
  simp only [mul, hn, hi, hz, isNaN_of_isFinite hy, hyz, infinity_fields.1, hys, Bool.or_false,
    Bool.true_or, Bool.false_eq_true, if_false, if_true, bne_self_eq_false]

theorem infinity_add {y : Binary64} (hy : y.isFinite = true) : infinity false + y = infinity false := by
  obtain ⟨hn, hi, -⟩ := infinity_flags
  show add _ y = _
  simp only [add, hn, hi, isNaN_of_isFinite hy, isInfinite_of_isFinite hy, Bool.or_false,
    Bool.false_and, Bool.false_eq_true, if_false, if_true]

/-- A big double times a positive natural number below `2 ^ 53` stays big. -/
theorem Big.mul_ofNat {x : Binary64} (h : Big x) {k : Nat} (hk0 : k ≠ 0) (hk : k < 2 ^ 53) :
    Big (x * ofNat k) := by
  obtain ⟨hkf, hks, hkv⟩ := ofNat_exact hk
  cases hx : x.isFinite
  · rw [h.eq_infinity hx, infinity_mul hkf (isZero_ofNat hk0 hk) hks]
    exact big_infinity
  · obtain ⟨v, hv, hxv⟩ := h.exists_toRat
    rw [mul_eq_ofNat hx hkf h.1 hks hxv hkv]
    exact big_ofNat (le_trans hv (Nat.le_mul_of_pos_right v (Nat.pos_of_ne_zero hk0)))

/-- A big double plus a natural number below `2 ^ 53` stays big. -/
theorem Big.add_ofNat {x : Binary64} (h : Big x) {d : Nat} (hd : d < 2 ^ 53) : Big (x + ofNat d) := by
  obtain ⟨hdf, hds, hdv⟩ := ofNat_exact hd
  cases hx : x.isFinite
  · rw [h.eq_infinity hx, infinity_add hdf]
    exact big_infinity
  · obtain ⟨v, hv, hxv⟩ := h.exists_toRat
    rw [add_eq_ofNat hx hdf h.1 hds hxv hdv]
    exact big_ofNat (le_trans hv (Nat.le_add_right v d))

/-! ### Negation and integrality -/

@[simp] theorem isNaN_neg (x : Binary64) : (neg x).isNaN = x.isNaN := by simp [isNaN]

@[simp] theorem isFinite_neg (x : Binary64) : (neg x).isFinite = x.isFinite := by simp [isFinite]

@[simp] theorem isInfinite_neg (x : Binary64) : (neg x).isInfinite = x.isInfinite := by simp [isInfinite]

@[simp] theorem significand_neg (x : Binary64) : (neg x).significand = x.significand := by simp [significand]

@[simp] theorem exponent_neg (x : Binary64) : (neg x).exponent = x.exponent := by simp [exponent]

theorem toRat_neg (x : Binary64) : (neg x).toRat = -x.toRat := by
  rw [toRat_eq, toRat_eq, signField_neg, significand_neg, exponent_neg]
  cases x.signField <;> simp

theorem neg_round {n : Nat} (h : n < 2 ^ 53) : (round false n 1 0).neg = round true n 1 0 := by
  by_cases hn : n = 0
  · subst hn
    obtain ⟨hs, he, hf⟩ := zero_fields false
    obtain ⟨hs', he', hf'⟩ := zero_fields true
    rw [round_zero, round_zero]
    exact ext_fields (by rw [signField_neg, hs, hs']; rfl) (by rw [exponentField_neg, he, he'])
      (by rw [fractionField_neg, hf, hf'])
  · obtain ⟨hs, he, hf⟩ := round_fields false hn h
    obtain ⟨hs', he', hf'⟩ := round_fields true hn h
    exact ext_fields (by rw [signField_neg, hs, hs']; rfl) (by rw [exponentField_neg, he, he'])
      (by rw [fractionField_neg, hf, hf'])

/-- A natural number below `2 ^ 53` with a sign put on its double is the double
rounded with that sign. -/
theorem signed_ofNat (negative : Bool) {n : Nat} (h : n < 2 ^ 53) :
    (if negative then (ofNat n).neg else ofNat n) = round negative n 1 0 := by
  cases negative
  · simp only [Bool.false_eq_true, if_false, ofNat]
  · exact neg_round h

section Small

variable (negative : Bool) {n : Nat} (h : n < 2 ^ 53)
include h

theorem isIntegral_round : (round negative n 1 0).isIntegral = true := by
  by_cases hn : n = 0
  · obtain ⟨-, he, hf⟩ := zero_fields negative
    subst hn
    simp [round_zero, isIntegral, isFinite, significand, he, hf]
  obtain ⟨hL, -, -⟩ := shifted_bounds hn h
  obtain ⟨-, he, -⟩ := round_fields negative hn h
  have hexp : (-(round negative n 1 0).exponent).toNat = 52 - n.log2 := by
    rw [exponent_round negative hn h]
    omega
  simp only [isIntegral, Bool.and_eq_true, Bool.or_eq_true, decide_eq_true_eq, beq_iff_eq, hexp]
  refine ⟨by simp [isFinite, he]; omega, .inr ?_⟩
  rw [significand_round negative hn h, Nat.pow_eq]
  exact Nat.mul_mod_left _ _

theorem magnitudeBelowPow2_round : (round negative n 1 0).magnitudeBelowPow2 53 = true := by
  by_cases hn : n = 0
  · obtain ⟨-, he, hf⟩ := zero_fields negative
    subst hn
    simp [round_zero, magnitudeBelowPow2, isFinite, isZero, he, hf]
  obtain ⟨hL, -, -⟩ := shifted_bounds hn h
  obtain ⟨-, he, -⟩ := round_fields negative hn h
  have hlog : floorLog2Ratio (round negative n 1 0).significand 1 = 52 := by
    rw [significand_round negative hn h, floorLog2Ratio_one (by positivity), log2_mul_two_pow hn]
    omega
  simp only [magnitudeBelowPow2, Bool.and_eq_true, Bool.or_eq_true, decide_eq_true_eq, hlog]
  refine ⟨by simp [isFinite, he]; omega, .inr ?_⟩
  rw [exponent_round negative hn h]
  omega

theorem truncate_round : (round negative n 1 0).truncate = if negative then -(n : Int) else n := by
  by_cases hn : n = 0
  · obtain ⟨hs, he, hf⟩ := zero_fields negative
    subst hn
    cases negative <;> simp [round_zero, truncate, significand, hs, he, hf]
  obtain ⟨hL, -, -⟩ := shifted_bounds hn h
  obtain ⟨hs, -, -⟩ := round_fields negative hn h
  have hsig := significand_round negative hn h
  have hexp := exponent_round negative hn h
  have hm : (if 0 ≤ (round negative n 1 0).exponent then
      (round negative n 1 0).significand * Nat.pow 2 (round negative n 1 0).exponent.toNat
      else (round negative n 1 0).significand / Nat.pow 2 (-(round negative n 1 0).exponent).toNat) = n := by
    rw [hsig, hexp, Nat.pow_eq, Nat.pow_eq]
    split
    · have hL52 : n.log2 = 52 := by omega
      simp [hL52]
    · rw [show (-((n.log2 : Int) - 52)).toNat = 52 - n.log2 by omega]
      exact Nat.mul_div_cancel _ (by positivity)
  simp only [truncate, hs, hm]

end Small

section BigExponent

variable {x : Binary64} (hx : x.isFinite = true) (he : 1076 ≤ x.exponentField)
include hx he

theorem isIntegral_of_exponentField : x.isIntegral = true := by
  have : 0 ≤ x.exponent := by rw [exponent, if_neg (by omega)]; omega
  simp [isIntegral, hx, this]

theorem magnitudeBelowPow2_of_exponentField : x.magnitudeBelowPow2 53 = false := by
  have hf := fractionField_lt x
  have hsig : x.significand = x.fractionField + 2 ^ 52 := by
    rw [significand, if_neg (by omega), Nat.pow_eq]
  have hlog : floorLog2Ratio x.significand 1 = 52 := by
    rw [floorLog2Ratio_one (by omega)]
    have h1 : x.significand.log2 < 53 := (Nat.log2_lt (by omega)).2 (by omega)
    have h2 : 52 ≤ x.significand.log2 := (Nat.le_log2 (by omega)).2 (by omega)
    omega
  have hexp : 1 ≤ x.exponent := by rw [exponent, if_neg (by omega)]; omega
  simp only [magnitudeBelowPow2, hx, isZero, hlog, Bool.true_and, Bool.or_eq_false_iff,
    Bool.and_eq_false_iff, beq_eq_false_iff_ne, decide_eq_false_iff_not, not_lt]
  exact ⟨.inl (by omega), by omega⟩

end BigExponent

end Binary64

end LayeredConfig
