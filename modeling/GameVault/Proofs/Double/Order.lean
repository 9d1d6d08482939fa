import Mathlib
import GameVault.Double.Round

namespace GameVault

namespace Double

/-- The bits of the double holding a positive integer `n ≤ 2 ^ 53` exactly: the exponent field
`log2 n + 1023` and, as fraction, the bits of `n` below its leading one moved up to 52 places. -/
def exactBits (n : Nat) : Nat := (n.log2 + 1023) * 2 ^ 52 + (n - 2 ^ n.log2) * 2 ^ (52 - n.log2)

theorem log2_le_53 {n : Nat} (small : n ≤ 2 ^ 53) : n.log2 ≤ 53 := by
  rcases Nat.eq_zero_or_pos n with rfl | pos
  · simp [Nat.log2]
  · exact Nat.lt_succ_iff.mp ((Nat.log2_lt pos.ne').mpr (by omega))

theorem log2_mono {n m : Nat} (pos : 0 < n) (le : n ≤ m) : n.log2 ≤ m.log2 := by
  by_contra above
  have below := (Nat.log2_lt (by omega : m ≠ 0)).mp (Nat.lt_of_not_le above)
  have := Nat.log2_self_le pos.ne'
  omega

theorem roundHalfEven_one (x : Nat) : roundHalfEven x 1 = x := by
  simp [roundHalfEven, Nat.mod_one]

/-- A positive integer up to `2 ^ 53` is a double exactly. -/
theorem ofRatio_exact (negative : Bool) {n : Nat} (pos : 0 < n) (small : n ≤ 2 ^ 53) :
    ofRatio negative n 1 = withSign negative (exactBits n).toUInt64 := by
  have leading := Nat.log2_self_le pos.ne'
  have next := @Nat.lt_log2_self n
  have bounded := log2_le_53 small
  have logOne : Nat.log2 1 = 0 := by simpa using @Nat.log2_two_pow 0
  have atLeast : ratioAtLeastPow2 n 1 (n.log2 : Int) = true := by
    simpa [ratioAtLeastPow2, Nat.pow_eq] using leading
  unfold ofRatio
  rw [if_neg pos.ne']
  simp only [logOne, Nat.cast_zero, sub_zero, atLeast, if_true]
  rw [if_neg (show ¬((n.log2 : Int) < -1022) by omega)]
  simp only [Nat.pow_eq]
  rcases Nat.lt_or_ge n.log2 53 with below | top
  · have shift : ((52 : Int) - n.log2).toNat = 52 - n.log2 := by omega
    have fits : n * 2 ^ (52 - n.log2) < 2 ^ 53 := by
      calc n * 2 ^ (52 - n.log2) < 2 ^ (n.log2 + 1) * 2 ^ (52 - n.log2) :=
            Nat.mul_lt_mul_of_pos_right next (by positivity)
        _ = 2 ^ 53 := by rw [← pow_add]; congr 1; omega
    have fraction : n * 2 ^ (52 - n.log2) - 2 ^ 52 = (n - 2 ^ n.log2) * 2 ^ (52 - n.log2) := by
      rw [Nat.sub_mul, ← pow_add, show n.log2 + (52 - n.log2) = 52 by omega]
    simp only [if_pos (show (0 : Int) ≤ 52 - n.log2 by omega), shift, roundHalfEven_one, if_neg fits.ne,
      if_neg (show ¬((n.log2 : Int) > 1023) by omega)]
    rw [exactBits, ← fraction, show ((n.log2 : Int) + 1023).toNat = n.log2 + 1023 by omega]
  · have top : n = 2 ^ 53 := by
      have := Nat.pow_le_pow_right (by decide : 0 < 2) top
      omega
    subst top
    have half : roundHalfEven (2 ^ 53) (1 * 2 ^ (-(52 - ((53 : Nat) : Int))).toNat) = 2 ^ 52 := by decide
    simp only [Nat.log2_two_pow, if_neg (show ¬((0 : Int) ≤ 52 - ((53 : Nat) : Int)) by decide), half,
      if_neg (show (2 ^ 52 : Nat) ≠ 2 ^ 53 by decide), if_neg (show ¬(((53 : Nat) : Int) > 1023) by decide)]
    rw [exactBits, Nat.log2_two_pow]
    rfl

theorem exactBits_lt {n : Nat} (pos : 0 < n) (small : n ≤ 2 ^ 53) : exactBits n < 1077 * 2 ^ 52 := by
  have leading := Nat.log2_self_le pos.ne'
  have next := @Nat.lt_log2_self n
  have bounded := log2_le_53 small
  have fraction : (n - 2 ^ n.log2) * 2 ^ (52 - n.log2) < 2 ^ 52 := by
    rcases Nat.lt_or_ge n.log2 53 with below | top
    · calc (n - 2 ^ n.log2) * 2 ^ (52 - n.log2) < 2 ^ n.log2 * 2 ^ (52 - n.log2) :=
            Nat.mul_lt_mul_of_pos_right (by rw [pow_succ] at next; omega) (by positivity)
        _ = 2 ^ 52 := by rw [← pow_add]; congr 1; omega
    · have top : n.log2 = 53 := by omega
      rw [top] at leading ⊢
      have : n - 2 ^ 53 = 0 := by omega
      rw [this, Nat.zero_mul]
      positivity
  unfold exactBits
  omega

/-- Larger integers up to `2 ^ 53` have larger bits. -/
theorem exactBits_strictMono {n m : Nat} (pos : 0 < n) (lt : n < m) (small : m ≤ 2 ^ 53) :
    exactBits n < exactBits m := by
  have leading := Nat.log2_self_le pos.ne'
  have next := @Nat.lt_log2_self n
  have leading' := Nat.log2_self_le (show m ≠ 0 by omega)
  have bounded := log2_le_53 small
  rcases (log2_mono pos lt.le).lt_or_eq with shorter | same
  · have fraction : (n - 2 ^ n.log2) * 2 ^ (52 - n.log2) < 2 ^ 52 := by
      have below : n.log2 < 53 := by omega
      calc (n - 2 ^ n.log2) * 2 ^ (52 - n.log2) < 2 ^ n.log2 * 2 ^ (52 - n.log2) :=
            Nat.mul_lt_mul_of_pos_right (by rw [pow_succ] at next; omega) (by positivity)
        _ = 2 ^ 52 := by rw [← pow_add]; congr 1; omega
    unfold exactBits
    omega
  · have below : n.log2 < 53 := by
      by_contra top
      have := Nat.pow_le_pow_right (by decide : 0 < 2) (show 53 ≤ n.log2 by omega)
      omega
    unfold exactBits
    rw [← same]
    have : (n - 2 ^ n.log2) * 2 ^ (52 - n.log2) < (m - 2 ^ n.log2) * 2 ^ (52 - n.log2) :=
      Nat.mul_lt_mul_of_pos_right (by omega) (by positivity)
    omega

theorem signMask_toNat : signMask.toNat = 2 ^ 63 := by decide

theorem not_signMask_toNat : (~~~signMask).toNat = 2 ^ 63 - 1 := by decide

theorem totalKey_withSign_false {b : UInt64} (small : b.toNat < 2 ^ 63) :
    (withSign false b).totalKey = b.toNat := by
  have masked : (b &&& signMask).toNat = 0 := by
    rw [UInt64.toNat_and, signMask_toNat, Nat.and_two_pow, Nat.testBit_lt_two_pow small]
    rfl
  have unsigned : signBit ⟨b⟩ = false := by
    simp [signBit, ← UInt64.toNat_inj, masked]
  simp [withSign, totalKey, unsigned]

theorem totalKey_withSign_true {b : UInt64} (small : b.toNat < 2 ^ 63) :
    (withSign true b).totalKey = -(b.toNat : Int) - 1 := by
  have set : (b ||| signMask).toNat = b.toNat + 2 ^ 63 := by
    rw [UInt64.toNat_or, signMask_toNat, Nat.or_two_pow_eq_add_of_lt small]
  have masked : ((b ||| signMask) &&& signMask).toNat = 2 ^ 63 := by
    rw [UInt64.toNat_and, UInt64.toNat_or, signMask_toNat, Nat.and_two_pow, Nat.testBit_or,
      Nat.testBit_two_pow_self, Bool.or_true]
    rfl
  have signed : signBit ⟨b ||| signMask⟩ = true := by
    simp [signBit, ← UInt64.toNat_inj, masked]
  have magnitude : ((b ||| signMask) &&& ~~~signMask).toNat = b.toNat := by
    rw [UInt64.toNat_and, set, not_signMask_toNat, Nat.and_two_pow_sub_one_eq_mod, Nat.add_mod_right,
      Nat.mod_eq_of_lt small]
  simp [withSign, totalKey, signed, magnitude]

theorem exactBits_pos (n : Nat) : 0 < exactBits n := by
  unfold exactBits
  positivity

theorem toNat_exactBits {n : Nat} (pos : 0 < n) (small : n ≤ 2 ^ 53) :
    (exactBits n).toUInt64.toNat = exactBits n := by
  have fits := exactBits_lt pos small
  simp only [Nat.toUInt64_eq, UInt64.toNat_ofNat']
  omega

/-- Where the integers up to `2 ^ 53` in magnitude fall in the total order of doubles: zero at
`+0.0`, positive integers at their bits, negative ones below every nonnegative double. -/
theorem totalKey_ofInt {n : Int} (small : n.natAbs ≤ 2 ^ 53) :
    (ofInt n).totalKey =
      if 0 < n then (exactBits n.natAbs : Int) else if n = 0 then 0 else -(exactBits n.natAbs : Int) - 1 := by
  unfold ofInt
  rcases lt_trichotomy n 0 with negative | rfl | positive
  · have pos : 0 < n.natAbs := by omega
    have below : (exactBits n.natAbs).toUInt64.toNat < 2 ^ 63 := by
      rw [toNat_exactBits pos small]
      exact lt_trans (exactBits_lt pos small) (by decide)
    rw [decide_eq_true negative, ofRatio_exact true pos small, totalKey_withSign_true below,
      toNat_exactBits pos small, if_neg (by omega), if_neg (by omega)]
  · simp [ofRatio, withSign, totalKey, signBit]
  · have pos : 0 < n.natAbs := by omega
    have below : (exactBits n.natAbs).toUInt64.toNat < 2 ^ 63 := by
      rw [toNat_exactBits pos small]
      exact lt_trans (exactBits_lt pos small) (by decide)
    rw [decide_eq_false (by omega), ofRatio_exact false pos small, totalKey_withSign_false below,
      toNat_exactBits pos small, if_pos positive]

/-- Conversion to a double keeps the order of integers up to `2 ^ 53` in magnitude, strictly. -/
theorem totalKey_ofInt_lt {a b : Int} (lt : a < b) (small : a.natAbs ≤ 2 ^ 53) (small' : b.natAbs ≤ 2 ^ 53) :
    (ofInt a).totalKey < (ofInt b).totalKey := by
  rw [totalKey_ofInt small, totalKey_ofInt small']
  rcases lt_trichotomy a 0 with negative | rfl | positive <;> rcases lt_trichotomy b 0 with negative' | rfl | positive'
  · have larger := exactBits_strictMono (by omega : 0 < b.natAbs) (by omega : b.natAbs < a.natAbs) small
    simp only [if_neg (show ¬(0 < a) by omega), if_neg (show a ≠ 0 by omega), if_neg (show ¬(0 < b) by omega),
      if_neg (show b ≠ 0 by omega)]
    omega
  · simp only [if_neg (show ¬(0 < a) by omega), if_neg (show a ≠ 0 by omega), lt_irrefl, if_false, if_true]
    omega
  · simp only [if_neg (show ¬(0 < a) by omega), if_neg (show a ≠ 0 by omega), if_pos positive']
    omega
  · omega
  · omega
  · simp only [lt_irrefl, if_false, if_true, if_pos positive']
    have := exactBits_pos b.natAbs
    omega
  · omega
  · omega
  · have larger := exactBits_strictMono (by omega : 0 < a.natAbs) (by omega : a.natAbs < b.natAbs) small'
    simp only [if_pos positive, if_pos positive']
    omega

theorem compare_ofInt {a b : Int} (small : a.natAbs ≤ 2 ^ 53) (small' : b.natAbs ≤ 2 ^ 53) :
    compare (ofInt a).totalKey (ofInt b).totalKey = compare a b := by
  rcases lt_trichotomy a b with below | rfl | above
  · rw [compare_lt_iff_lt.mpr below, compare_lt_iff_lt.mpr (totalKey_ofInt_lt below small small')]
  · simp
  · rw [compare_gt_iff_gt.mpr above, compare_gt_iff_gt.mpr (totalKey_ofInt_lt above small' small)]

end Double

end GameVault
