/-
  Integers as doubles.

  * `isFinite_pack`: a number with a small exponent is packed into a finite
    double;
  * `small_roundWithAccuracy`: rounding does not make an exponent large;
  * `isFinite_ofInt`: no integer of 64 bits is too large for a double.
-/
import Reactor.Decimal.Binary

namespace Reactor.Decimal

open Float.Model UnpackedFloat

/-! ## Packing -/

theorem toNat_unpackExponent (b : BitVec 64) :
    (@unpackExponent Format.binary64 b).toNat = b.toNat / Nat.pow 2 52 % 2048 := by
  simp only [unpackExponent, BitVec.toNat_cast, BitVec.extractLsb_toNat, Nat.shiftRight_eq_div_pow]

/-- A double is finite if not all bits of its exponent are set. -/
theorem isFinite_iff (x : Float.Model) : isFinite (.ofModel x) = true ↔
    (@unpackExponent Format.binary64 x.toBits.toBitVec).toNat ≠ 2047 := by
  rw [toNat_unpackExponent, isFinite, bne_iff_ne]
  rfl

/-- Zero, or a number with a small exponent. -/
def Small : UnpackedFloat → Prop
  | .zero _ => True
  | .finite _ _ e _ => e < 900
  | _ => False

theorem pack_zero (s : Sign) :
    UnpackedFloat.pack Format.binary64 (.zero s) = packComponents Format.binary64 s 0 0 := rfl

/-- A number is packed with the bits of its exponent, unless it is too large for them
    or has too few digits. -/
theorem pack_finite (s : Sign) {m : Nat} (e : Int) (hm : 0 < m) :
    UnpackedFloat.pack Format.binary64 (.finite s m e hm) =
      if 2048 ≤ (e + 1023 + 52).toNat + 1 then packedInfinity Format.binary64 s
      else if m.log2 + 1 = 53 then
        packComponents Format.binary64 s (.ofNat 11 (e + 1023 + 52).toNat) (.ofNat 52 m)
      else packComponents Format.binary64 s 0 (.ofNat 52 m) := rfl

theorem isFinite_pack {x : UnpackedFloat} (hx : Small x) :
    isFinite (.ofModel (.pack x)) = true := by
  rw [isFinite_iff]
  change (unpackExponent (UnpackedFloat.pack Format.binary64 x)).toNat ≠ 2047
  cases x with
  | zero s => rw [pack_zero, unpackExponent_packComponents]; decide
  | finite s m e hm =>
    have he : (e + 1023 + 52).toNat < 1976 := by have hx : e < 900 := hx; omega
    rw [pack_finite, if_neg (by omega)]
    split
    · rw [unpackExponent_packComponents, BitVec.toNat_ofNat]
      have hmod := Nat.mod_le (e + 1023 + 52).toNat (2 ^ 11)
      exact Nat.ne_of_lt (Nat.lt_of_le_of_lt hmod (by omega))
    · rw [unpackExponent_packComponents]; decide
  | infinity | notANumber => cases hx

/-! ## Rounding -/

theorem mantissa_shiftRight_le (x : ExtendedMantissa) (k : Nat) :
    (x >>> k).mantissa ≤ x.mantissa := by
  induction k with
  | zero => exact Nat.le_refl _
  | succ k ih => exact Nat.le_trans (Nat.div_le_self (x >>> k).mantissa 2) ih

theorem roundedMantissa_le (x : ExtendedMantissa) : x.roundedMantissa ≤ x.mantissa + 1 := by
  obtain ⟨m, round, sticky⟩ := x
  have hparity := Nat.mod_lt m (Nat.succ_pos 1)
  cases round <;> cases sticky <;>
    simp only [ExtendedMantissa.roundedMantissa, ExtendedMantissa.accuracy,
      Accuracy.roundToNearestEven] <;> omega

theorem log2_lt_of_lt {m n : Nat} (hn : 0 < n) (hm : m < Nat.pow 2 n) : m.log2 < n := by
  by_cases hzero : m = 0
  · rw [hzero]; exact hn
  · exact (Nat.log2_lt hzero).2 hm

/-- An exponent grows by as many bits as the mantissa has at most. -/
theorem shiftToTargetExponent_le {m n : Nat} {e : Int} (hn : 0 < n) (hm : m < Nat.pow 2 n)
    (a : Accuracy) : (shiftToTargetExponent Format.binary64 m e a).2 ≤ max (e + n) (-1074) := by
  have hlog := log2_lt_of_lt hn hm
  have hdigits : Format.binary64.mantissaBits = 53 := rfl
  simp only [shiftToTargetExponent, shiftToExponent, Format.targetExponent, totalExponent,
    hdigits, Format.minExponent]
  omega

theorem small_dite {c : Prop} [Decidable c] {x : c → UnpackedFloat} {y : ¬c → UnpackedFloat}
    (hx : ∀ hc, Small (x hc)) (hy : ∀ hc, Small (y hc)) : Small (dite c x y) := by
  by_cases hc : c
  · rw [dif_pos hc]; exact hx hc
  · rw [dif_neg hc]; exact hy hc

theorem small_roundWithAccuracy {s : Sign} {m : Nat} {e : Int} (hm : m < Nat.pow 2 117)
    (he : e = -53) : Small (roundWithAccuracy Format.binary64 s m e .exact) := by
  have hfirst := shiftToTargetExponent_le (e := e) (by decide) hm .exact
  have hmantissa : (shiftToTargetExponent Format.binary64 m e .exact).1.roundedMantissa <
      Nat.pow 2 118 := by
    have hshift : (shiftToTargetExponent Format.binary64 m e .exact).1.mantissa ≤ m :=
      mantissa_shiftRight_le _ _
    have hround := roundedMantissa_le (shiftToTargetExponent Format.binary64 m e .exact).1
    have hpow : Nat.pow 2 118 = 2 * Nat.pow 2 117 := rfl
    omega
  have hsecond := shiftToTargetExponent_le
    (e := (shiftToTargetExponent Format.binary64 m e .exact).2) (by decide) hmantissa .exact
  exact small_dite (fun _ => trivial) fun _ => Int.lt_of_le_of_lt hsecond (by omega)

theorem mul_finite (f : Format) (s s' : Sign) {m m' : Nat} (e e' : Int) (hm : 0 < m) (hm' : 0 < m') :
    UnpackedFloat.mul f (.finite s m e hm) (.finite s' m' e' hm') =
      roundWithAccuracy f (s * s') (m * m') (e + e') .exact := rfl

/-- A whole number of 64 bits has a small exponent. -/
theorem small_ofScientific {m : Nat} (hpos : m ≠ 0) (hm : m < Nat.pow 2 64) :
    Small (UnpackedFloat.ofScientific Format.binary64 m 0) := by
  have hshift : (m <<< 53) * 1 < Nat.pow 2 117 := by
    rw [Nat.mul_one, Nat.shiftLeft_eq]
    exact Nat.mul_lt_mul_of_pos_right hm (Nat.two_pow_pos 53)
  rw [UnpackedFloat.ofScientific, dif_neg hpos, if_neg (by decide), if_neg (by dsimp only; omega),
    if_pos (Int.le_refl 0), mul_finite]
  refine small_roundWithAccuracy ?_ ?_
  · exact hshift
  · rfl

/-- **No integer of 64 bits is too large for a double.** -/
theorem isFinite_ofInt {i : Int} (hlarge : Nat.pow 2 63 ≤ i) (hi : i < Nat.pow 2 64) :
    isFinite (ofInt i) = true := by
  have hbits : (Nat.pow 2 63 : Nat) = 9223372036854775808 := rfl
  -- too long for the fast way of a double, which is exact
  have hslow : ¬(i.natAbs < 9007199254740992 ∧ 0 ≤ 22) := by omega
  rw [ofInt, if_neg (by omega), Float.ofScientific, dif_neg hslow]
  exact isFinite_pack (small_ofScientific (by omega) (by omega))

end Reactor.Decimal
