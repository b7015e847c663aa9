import FileMarket.Proofs.Decimal.Value
import Mathlib

/-!
# The value nearest to a count

Counts are turned into floating point values by rounding a mantissa to 53 bits. Whatever the
rounding does, the value nearest to a count is not below zero, and it is zero only for the count
that is zero (`ofCount_bounds`). So a negative integer on the wire is never taken for a count
(`toNat?_negate_ofCount`).
-/

set_option autoImplicit false

namespace FileMarket.Binary64

open Float.Model Float.Model.UnpackedFloat

/-! ## Cutting a mantissa -/

/-- A mantissa that is cut to 53 bits fits, and something of it is left. -/
theorem cut_bounds {m : Nat} (hm : 0 < m) :
    0 < m / 2 ^ (m.log2 - 52) ∧ m / 2 ^ (m.log2 - 52) < 2 ^ 53 := by
  have hle : 2 ^ (m.log2 - 52) ≤ m :=
    (Nat.pow_le_pow_right (by decide) (Nat.sub_le _ _)).trans (Nat.log2_self_le hm.ne')
  refine ⟨Nat.div_pos hle (by positivity), Nat.div_lt_of_lt_mul ?_⟩
  calc m < 2 ^ (m.log2 + 1) := Nat.lt_log2_self
    _ ≤ 2 ^ ((m.log2 - 52) + 53) := Nat.pow_le_pow_right (by decide) (by omega)
    _ = 2 ^ (m.log2 - 52) * 2 ^ 53 := pow_add 2 _ _

/-- Shifting by some places divides. -/
theorem mantissa_shiftRight (em : ExtendedMantissa) (k : Nat) :
    (em >>> k).mantissa = em.mantissa / 2 ^ k := by
  show (k.repeat ExtendedMantissa.shiftRightOne em).mantissa = _
  induction k with
  | zero => simp [Nat.repeat]
  | succ k ih =>
    show (k.repeat ExtendedMantissa.shiftRightOne em).mantissa / 2 = _
    rw [ih, Nat.div_div_eq_div_mul, pow_succ]

/-- Above the least exponent, bringing a mantissa to 53 bits is a shift by what it has too many. -/
theorem shiftToTargetExponent_eq {m : Nat} {e : Int} (he : -1074 ≤ e) (accuracy : Accuracy) :
    shiftToTargetExponent .binary64 m e accuracy =
      (ExtendedMantissa.ofMantissaAndAccuracy m accuracy >>> (m.log2 - 52),
        e + (m.log2 - 52 : Nat)) := by
  have hshift : (Format.binary64.targetExponent (totalExponent m e) - e).toNat = m.log2 - 52 := by
    simp only [Format.targetExponent, totalExponent, Format.minExponent, Format.mantissaBits]
    omega
  rw [shiftToTargetExponent, shiftToExponent, hshift]

/-- Rounding adds one or nothing. -/
theorem roundedMantissa_bounds (em : ExtendedMantissa) :
    em.mantissa ≤ em.roundedMantissa ∧ em.roundedMantissa ≤ em.mantissa + 1 := by
  obtain ⟨m, round, sticky⟩ := em
  cases round <;> cases sticky <;>
    simp only [ExtendedMantissa.roundedMantissa, ExtendedMantissa.accuracy,
      Accuracy.roundToNearestEven] <;>
    omega


/-! ## Rounding -/

/-- Rounding a positive mantissa gives a positive mantissa of at most 53 bits, and keeps the
exponent above the least one. -/
theorem exists_round_eq {m : Nat} {e : Int} (hm : 0 < m) (he : -1074 ≤ e) :
    ∃ m' e' hm', round .binary64 .positive m e = .finite .positive m' e' hm' ∧
      m' < 2 ^ 53 ∧ -1074 ≤ e' := by
  -- The mantissa is brought to 53 bits, rounded, and cut once more in case that made it too long.
  let target := Format.binary64.targetExponent (totalExponent m e)
  let m₀ := (decreaseExponent m e target).1
  let e₀ := (decreaseExponent m e target).2
  have hm₀ : 0 < m₀ := by
    show 0 < m <<< (e - target).toNat
    rw [Nat.shiftLeft_eq]
    positivity
  have he₀ : -1074 ≤ e₀ := by
    have htarget : -1074 ≤ target := le_max_right _ _
    show -1074 ≤ e - (e - target).toNat
    omega
  let em := ExtendedMantissa.ofMantissaAndAccuracy m₀ .exact >>> (m₀.log2 - 52)
  have hem : em.mantissa = m₀ / 2 ^ (m₀.log2 - 52) := mantissa_shiftRight _ _
  have hrounded : 0 < em.roundedMantissa :=
    (hem ▸ (cut_bounds hm₀).1).trans_le (roundedMantissa_bounds em).1
  have hcut := cut_bounds hrounded
  have he₁ : -1074 ≤ e₀ + (m₀.log2 - 52 : Nat) := by omega
  refine ⟨em.roundedMantissa / 2 ^ (em.roundedMantissa.log2 - 52),
    e₀ + (m₀.log2 - 52 : Nat) + (em.roundedMantissa.log2 - 52 : Nat), hcut.1, ?_, hcut.2, by omega⟩
  show roundWithAccuracy .binary64 .positive m₀ e₀ .exact = _
  unfold roundWithAccuracy
  simp only [shiftToTargetExponent_eq he₀]
  simp only [shiftToTargetExponent_eq he₁, mantissa_shiftRight]
  exact dif_neg hcut.1.ne'


/-! ## Packing -/

/-- The bits of a value without sign: the exponent above the fraction. -/
theorem toNat_packComponents (exponent : BitVec 11) (fraction : BitVec 52) :
    (packComponents .binary64 .positive exponent fraction).toNat =
      exponent.toNat * 2 ^ 52 + fraction.toNat := by
  have hfraction := fraction.isLt
  show ((0#1 ++ exponent ++ fraction : BitVec (1 + 11 + 52))).toNat = _
  rw [BitVec.toNat_append, BitVec.toNat_append, Nat.shiftLeft_eq, Nat.shiftLeft_eq]
  simp only [BitVec.toNat_ofNat, Nat.zero_mod, Nat.zero_mul, Nat.zero_or]
  rw [← Nat.shiftLeft_eq, Nat.shiftLeft_add_eq_or_of_lt hfraction]

/-- A rounded positive value is packed without sign, and not as zero. -/
theorem pack_bounds {m : Nat} {e : Int} (hm : 0 < m) (hlt : m < 2 ^ 53) (he : -1074 ≤ e) :
    0 < (UnpackedFloat.pack .binary64 (.finite .positive m e hm)).toNat ∧
      (UnpackedFloat.pack .binary64 (.finite .positive m e hm)).toNat < 2 ^ 63 := by
  have hbelow : ∀ (exponent : BitVec 11) (fraction : BitVec 52),
      (packComponents .binary64 .positive exponent fraction).toNat < 2 ^ 63 := by
    intro exponent fraction
    have hexponent := exponent.isLt
    have hfraction := fraction.isLt
    rw [toNat_packComponents]
    omega
  have hbias : Format.binary64.exponentBias = 1023 := rfl
  have hlog : m.log2 < 53 := (Nat.log2_lt hm.ne').2 hlt
  simp only [UnpackedFloat.pack, hbias, Format.mantissaBits]
  split
  · exact ⟨by decide, hbelow _ _⟩
  · rename_i hfinite
    split
    · -- The exponent field of a normal value is not zero.
      refine ⟨?_, hbelow _ _⟩
      rw [toNat_packComponents, BitVec.toNat_ofNat, Nat.mod_eq_of_lt (by omega)]
      omega
    · -- A subnormal value keeps its mantissa.
      rename_i hsubnormal
      refine ⟨?_, hbelow _ _⟩
      have hsmall : m < 2 ^ 52 := (Nat.log2_lt hm.ne').1 (by omega)
      rw [toNat_packComponents, BitVec.toNat_ofNat m, Nat.mod_eq_of_lt hsmall]
      omega

/-- The value nearest to a count that is not zero is positive. -/
theorem ofCount_bounds {n : UInt64} (hn : n ≠ 0) :
    0 < (ofCount n).bits.toNat ∧ (ofCount n).bits.toNat < signWeight := by
  have hpos : 0 < n.toNat := Nat.pos_of_ne_zero fun h => hn (UInt64.toNat_inj.1 h)
  have hnormalize : UnpackedFloat.ofUInt64 .binary64 n = round .binary64 .positive n.toNat 0 := by
    show UnpackedFloat.normalize .binary64 n.toNat 0 .positive = _
    unfold UnpackedFloat.normalize
    rw [show compare (n.toNat : Int) 0 = .gt from Int.compare_eq_gt.2 (by exact_mod_cast hpos)]
    rfl
  obtain ⟨m, e, hm, hround, hlt, he⟩ := exists_round_eq hpos (e := 0) (by decide)
  have hbits : (ofCount n).bits.toNat =
      (UnpackedFloat.pack .binary64 (.finite .positive m e hm)).toNat := by
    rw [← hround, ← hnormalize]
    rfl
  rw [hbits]
  exact pack_bounds hm hlt he

/-- The opposite of the value nearest to a count is no natural number, unless the count is zero. -/
theorem toNat?_negate_ofCount {n : UInt64} (hn : n ≠ 0) : (ofCount n).negate.toNat? = none := by
  obtain ⟨hpos, hlt⟩ := ofCount_bounds hn
  have hmagnitude : (ofCount n).magnitude = (ofCount n).bits.toNat := Nat.mod_eq_of_lt hlt
  have hsign : (ofCount n).isNegative = false := decide_eq_false (not_le.2 hlt)
  -- The bits of the opposite are those of the value with the sign bit set.
  have hbits : (ofCount n).negate.bits.toNat = (ofCount n).bits.toNat + signWeight := by
    show (UInt64.ofNat ((ofCount n).magnitude % signWeight +
      if !(ofCount n).isNegative then signWeight else 0)).toNat = _
    rw [hsign, hmagnitude, Nat.mod_eq_of_lt hlt]
    refine UInt64.toNat_ofNat_of_lt' ?_
    show (ofCount n).bits.toNat + signWeight < 2 * signWeight
    omega
  have hnegative : (ofCount n).negate.isNegative = true := by
    unfold isNegative
    rw [hbits]
    exact decide_eq_true (Nat.le_add_left _ _)
  have hnonzero : (ofCount n).negate.significand ≠ 0 := by
    rw [ne_eq, significand_eq_zero_iff]
    unfold magnitude
    rw [hbits, Nat.add_mod_right, Nat.mod_eq_of_lt hlt]
    exact hpos.ne'
  unfold toNat?
  rw [if_pos (by simp [hnegative, hnonzero])]

end FileMarket.Binary64
