import Mathlib
import GovernedCatalog.Proofs.Decimal.Reading
import GovernedCatalog.Proofs.Decimal.Rounding

/-!
# Finite numbers are read back

The bits of a finite value are those of its sign, its exponent and its mantissa.
A decimal number is read as the value that it is nearest to, and the shortest
digits of a value stand for such a number.
-/

namespace GovernedCatalog.Decimal

open Float.Model (Format UnpackedFloat)
open Float.Model.UnpackedFloat (Sign packComponents unpackExponent unpackMantissa
  unpackSign)

/-! ## Bits -/

theorem toNat_append {n k : Nat} (v : BitVec n) (w : BitVec k) :
    (v ++ w).toNat = v.toNat * 2 ^ k + w.toNat := by
  rw [BitVec.toNat_append, ← Nat.shiftLeft_add_eq_or_of_lt w.isLt, Nat.shiftLeft_eq]

theorem finite_congr {s : Sign} {m m' : Nat} {e e' : Int} {h : 0 < m} {h' : 0 < m'}
    (hm : m = m') (he : e = e') : UnpackedFloat.finite s m e h = .finite s m' e' h' := by
  subst hm he
  rfl

section Fields

variable (bits : UInt64)

theorem toNat_mantissa : (@unpackMantissa Format.binary64 bits.toBitVec).toNat =
    bits.toNat % fractionBound := by
  simp [unpackMantissa, fractionBound]

theorem toNat_exponent : (@unpackExponent Format.binary64 bits.toBitVec).toNat =
    bits.toNat / fractionBound % 2048 := by
  simp [unpackExponent, Nat.shiftRight_eq_div_pow, fractionBound]

theorem toNat_sign : (@unpackSign Format.binary64 bits.toBitVec).toNat =
    bits.toNat / 2 ^ 63 % 2 := by
  simp [unpackSign, Nat.shiftRight_eq_div_pow]

end Fields

section Model

variable {f : Float.Model}

/-- The sign bit. -/
def signOf (f : Float.Model) : Sign :=
  Sign.ofBitVec (@unpackSign Format.binary64 f.toBits.toBitVec)

theorem exponent_of_isFinite (hf : f.isFinite = true) :
    @unpackExponent Format.binary64 f.toBits.toBitVec ≠ -1#11 := by
  intro hspecial
  unfold Float.Model.isFinite Float.Model.unpack UnpackedFloat.unpack at hf
  dsimp only at hf
  rw [if_pos hspecial] at hf
  split at hf <;> cases hf

theorem canonical_ofBits (hf : f.isFinite = true)
    (hm : (Binary.ofBits f.toBits).mantissa ≠ 0) : (Binary.ofBits f.toBits).Canonical := by
  have hfield : f.toBits.toNat / fractionBound % 2048 ≠ 2047 := by
    intro h
    exact exponent_of_isFinite hf (BitVec.eq_of_toNat_eq ((toNat_exponent f.toBits).trans h))
  have hbound : fractionBound = 2 ^ 52 := rfl
  refine ⟨Binary.ofBits_positive hm, ?_, ?_⟩
  all_goals
    unfold Binary.ofBits
    dsimp only
    split <;> dsimp only <;> omega

/-- A finite value is its sign, its mantissa and its exponent. -/
theorem unpack_eq_finite (hf : f.isFinite = true)
    (hm : 0 < (Binary.ofBits f.toBits).mantissa) :
    f.unpack = .finite (signOf f) (Binary.ofBits f.toBits).mantissa
      (Binary.ofBits f.toBits).exponent hm := by
  have hexponent := toNat_exponent f.toBits
  have hmantissa := toNat_mantissa f.toBits
  unfold Float.Model.unpack UnpackedFloat.unpack
  dsimp only
  rw [if_neg (exponent_of_isFinite hf)]
  split
  next hleast =>
    rw [hleast] at hexponent
    have hofBits : Binary.ofBits f.toBits = ⟨f.toBits.toNat % fractionBound, -1074⟩ :=
      if_pos hexponent.symm
    have hnonzero : @unpackMantissa Format.binary64 f.toBits.toBitVec ≠ 0#52 := by
      intro hzero
      rw [hzero] at hmantissa
      rw [hofBits] at hm
      exact hm.ne hmantissa
    rw [dif_neg hnonzero]
    apply finite_congr
    · rw [hmantissa, hofBits]
    · rw [hleast, hofBits]
      rfl
  next hnormal =>
    have hofBits : Binary.ofBits f.toBits =
        ⟨f.toBits.toNat % fractionBound + fractionBound,
          (f.toBits.toNat / fractionBound % 2048 : Nat) - 1075⟩ :=
      if_neg fun h => hnormal (BitVec.eq_of_toNat_eq (hexponent.trans h))
    apply finite_congr
    · rw [toNat_append, hmantissa, hofBits]
      exact Nat.add_comm _ _
    · rw [hexponent, hofBits]
      rfl

theorem unpack_eq_zero (hm : (Binary.ofBits f.toBits).mantissa = 0) :
    f.unpack = .zero (signOf f) := by
  have hbound : fractionBound = 2 ^ 52 := rfl
  have hexponent := toNat_exponent f.toBits
  have hmantissa := toNat_mantissa f.toBits
  unfold Binary.ofBits at hm
  dsimp only at hm
  split at hm
  next hfield =>
    rw [hfield] at hexponent
    have hleast : @unpackExponent Format.binary64 f.toBits.toBitVec = 0#11 :=
      BitVec.eq_of_toNat_eq hexponent
    have hzero : @unpackMantissa Format.binary64 f.toBits.toBitVec = 0#52 :=
      BitVec.eq_of_toNat_eq (hmantissa.trans hm)
    unfold Float.Model.unpack UnpackedFloat.unpack
    dsimp only
    rw [if_neg (by rw [hleast]; decide), if_pos hleast, dif_pos hzero]
    rfl
  next =>
    dsimp only at hm
    omega

theorem signOf_eq (f : Float.Model) :
    signOf f = if f.toBits >>> 63 == 1 then .negative else .positive := by
  have hshift : (f.toBits >>> 63).toNat = f.toBits.toNat / 2 ^ 63 := by
    rw [UInt64.toNat_shiftRight, Nat.shiftRight_eq_div_pow]
    rfl
  have hlt := f.toBits.toNat_lt
  have hsign : (@unpackSign Format.binary64 f.toBits.toBitVec).toNat =
      f.toBits.toNat / 2 ^ 63 % 2 := toNat_sign f.toBits
  unfold signOf Sign.ofBitVec
  by_cases hone : f.toBits >>> 63 = 1
  · have hone' : f.toBits.toNat / 2 ^ 63 = 1 := by
      rw [← hshift, hone]
      rfl
    rw [if_pos (beq_iff_eq.2 hone), if_neg]
    rw [← BitVec.toNat_inj, hsign, hone']
    decide
  · have hzero : f.toBits.toNat / 2 ^ 63 ≠ 1 := by
      intro h
      exact hone (UInt64.toNat_inj.1 (hshift.trans h))
    rw [if_neg (mt beq_iff_eq.1 hone), if_pos]
    rw [← BitVec.toNat_inj, hsign]
    change _ % 2 = 0
    omega

end Model

/-! ## Values -/

theorem log2_of_not_normal {m : Nat} (h : ¬ 2 ^ 52 ≤ m) : m.log2 + 1 ≠ 53 := by
  rcases Nat.eq_zero_or_pos m with rfl | hpos
  · decide
  · have := (Nat.log2_lt hpos.ne').2 (not_le.1 h)
    omega

namespace Binary

variable {b : Binary}

/-- The exponent field of the bits. -/
def field (b : Binary) : Nat :=
  if fractionBound ≤ b.mantissa then (b.exponent + 1075).toNat else 0

theorem Canonical.field_lt (hb : b.Canonical) : b.field < 2047 := by
  have := hb.exponent_le
  unfold field
  split <;> omega

theorem Canonical.pack_eq (hb : b.Canonical) (s : Sign) :
    UnpackedFloat.pack Format.binary64 (.finite s b.mantissa b.exponent hb.mantissa_pos) =
      packComponents Format.binary64 s (BitVec.ofNat 11 b.field)
        (BitVec.ofNat 52 b.mantissa) := by
  have hlow := hb.exponent_ge
  have hhigh := hb.exponent_le
  have hbound : fractionBound = 2 ^ 52 := rfl
  have hbiased : b.exponent + ((Format.binary64.exponentBias : Nat) : Int) +
      ((Format.binary64.mantissaBitsWithoutImplicit : Nat) : Int) = b.exponent + 1075 := by
    simp only [Format.exponentBias]
    omega
  have hfits : ¬ 2 ^ Format.binary64.exponentBits ≤ (b.exponent + 1075).toNat + 1 := by
    change ¬ 2 ^ 11 ≤ _
    omega
  have hbits : Format.binary64.mantissaBits = 53 := rfl
  unfold UnpackedFloat.pack
  dsimp only
  rw [hbiased, if_neg hfits, hbits]
  by_cases hnormal : fractionBound ≤ b.mantissa
  · rw [if_pos (by rw [log2_eq hnormal hb.mantissa_lt]), field, if_pos hnormal]
  · rw [if_neg (log2_of_not_normal hnormal), field, if_neg hnormal]

theorem Canonical.unpack_pack (hb : b.Canonical) (s : Sign) :
    UnpackedFloat.unpack Format.binary64 (UnpackedFloat.pack Format.binary64
        (.finite s b.mantissa b.exponent hb.mantissa_pos)) =
      .finite s b.mantissa b.exponent hb.mantissa_pos := by
  have hlow := hb.exponent_ge
  have hlt := hb.mantissa_lt
  have hpos := hb.mantissa_pos
  have hfield := hb.field_lt
  have hbound : fractionBound = 2 ^ 52 := rfl
  have hfinite : BitVec.ofNat 11 b.field ≠ -1#11 := by
    rw [ne_eq, ← BitVec.toNat_inj, BitVec.toNat_ofNat]
    change ¬ b.field % 2 ^ 11 = 2047
    omega
  rw [hb.pack_eq]
  unfold UnpackedFloat.unpack
  simp only [UnpackedFloat.unpackMantissa_packComponents,
    UnpackedFloat.unpackExponent_packComponents,
    UnpackedFloat.unpackSign_packComponents, Sign.ofBitVec_toBitVec]
  rw [if_neg hfinite]
  by_cases hnormal : fractionBound ≤ b.mantissa
  · have hnonzero : BitVec.ofNat 11 b.field ≠ 0#11 := by
      rw [ne_eq, ← BitVec.toNat_inj, BitVec.toNat_ofNat]
      rw [field, if_pos hnormal] at hfield ⊢
      change ¬ (b.exponent + 1075).toNat % 2 ^ 11 = 0
      omega
    rw [if_neg hnonzero]
    apply finite_congr
    · rw [toNat_append, BitVec.toNat_ofNat]
      change 1 * 2 ^ 52 + b.mantissa % 2 ^ 52 = _
      omega
    · rw [field, if_pos hnormal, BitVec.toNat_ofNat]
      change (((b.exponent + 1075).toNat % 2 ^ 11 : Nat) : Int) - 1075 = _
      rw [field, if_pos hnormal] at hfield
      omega
  · have hmantissa : BitVec.ofNat 52 b.mantissa ≠ 0#52 := by
      rw [ne_eq, ← BitVec.toNat_inj, BitVec.toNat_ofNat]
      change ¬ b.mantissa % 2 ^ 52 = 0
      omega
    have hleast := hb.normal.resolve_left hnormal
    rw [field, if_neg hnormal, if_pos rfl, dif_neg hmantissa]
    apply finite_congr
    · rw [BitVec.toNat_ofNat]
      omega
    · rw [hleast]
      rfl

end Binary

/-! ## Decimal numbers -/

namespace Binary

variable {b : Binary} {q : ℚ}

/-- The value as a floating-point number. -/
def Canonical.toModel (hb : b.Canonical) : Float.Model :=
  .pack (.finite .positive b.mantissa b.exponent hb.mantissa_pos)

theorem Canonical.unpack_toModel (hb : b.Canonical) :
    hb.toModel.unpack = .finite .positive b.mantissa b.exponent hb.mantissa_pos :=
  hb.unpack_pack .positive

theorem Canonical.neg_toModel (hb : b.Canonical) :
    -Float.ofModel hb.toModel =
      .ofModel (.pack (.finite .negative b.mantissa b.exponent hb.mantissa_pos)) := by
  change Float.ofModel (.pack hb.toModel.unpack.neg) = _
  rw [hb.unpack_toModel]
  rfl

theorem unpack_ofNat {n k : Nat} (hn : 0 < n) (hlt : n < 2 ^ 53) (hk : k ≤ 22) :
    ∃ (a : Binary) (ha : 0 < a.mantissa),
      (Float.Model.ofNat (n * 2 ^ k)).unpack = .finite .positive a.mantissa a.exponent ha ∧
        2 ^ 52 ≤ a.mantissa ∧ a.value = (n * 2 ^ k : Nat) := by
  obtain ⟨a, ha, hnormal, hvalue⟩ := exists_canonical hn hlt hk
  refine ⟨a, ha.mantissa_pos, ?_, hnormal, hvalue⟩
  unfold Float.Model.ofNat
  rw [ofNat_eq ha hvalue]
  exact ha.unpack_toModel

theorem power_eq : ∀ e : Fin Float.exactlyRepresentablePowersOfTen.size,
    Float.exactlyRepresentablePowersOfTen[e].toModel = Float.Model.ofNat (10 ^ e.val) := by
  decide +kernel

theorem unpack_power {e : Nat} (he : e ≤ 22) :
    ∃ (a : Binary) (ha : 0 < a.mantissa),
      (Float.Model.ofNat (10 ^ e)).unpack = .finite .positive a.mantissa a.exponent ha ∧
        2 ^ 52 ≤ a.mantissa ∧ a.value = 10 ^ e := by
  have hfive : 5 ^ e < 2 ^ 53 :=
    (Nat.pow_le_pow_right (by norm_num) he).trans_lt (by norm_num)
  have hten : 5 ^ e * 2 ^ e = 10 ^ e := (mul_pow 5 2 e).symm
  have h := unpack_ofNat (Nat.pow_pos (n := e) (Nat.succ_pos 4)) hfive he
  rw [hten] at h
  push_cast at h
  exact h

theorem toModel_toFloat {m : Nat} (hlt : m < 2 ^ 53) :
    m.toUInt64.toFloat.toModel = Float.Model.ofNat (m * 2 ^ 0) := by
  have hm : m.toUInt64.toNat = m * 2 ^ 0 := by
    rw [pow_zero, mul_one]
    exact Nat.mod_eq_of_lt (by omega)
  exact congrArg Float.Model.ofNat hm

theorem Nearest.exponent_bounds (hb : b.Canonical) {m : Nat} {e : Int} (hm : 0 < m)
    (hq : b.Nearest (m * 10 ^ e)) : e ≤ 2048 ∧ -(2048 + m.log2 : Int) ≤ e := by
  obtain ⟨hlow, hhigh⟩ := hq.bounds hb
  constructor
  · by_contra hlarge
    have hm' : (1 : ℚ) ≤ m := by exact_mod_cast hm
    have hpowers : (2 : ℚ) ^ (1024 : Int) ≤ m * 10 ^ e := by
      calc (2 : ℚ) ^ (1024 : Int) ≤ 10 ^ (1024 : Int) :=
            zpow_le_zpow_left₀ (by norm_num) (by norm_num) (by norm_num)
        _ ≤ 10 ^ e := zpow_le_zpow_right₀ (by norm_num) (by omega)
        _ ≤ m * 10 ^ e := le_mul_of_one_le_left (by positivity) hm'
    exact hpowers.not_gt hhigh
  · by_contra hsmall
    have hm' : (m : ℚ) ≤ 2 ^ ((m.log2 + 1 : Nat) : Int) := by
      rw [zpow_natCast]
      exact_mod_cast (Nat.lt_log2_self (n := m)).le
    have hten : (10 : ℚ) ^ e ≤ 2 ^ e := by
      obtain ⟨n, rfl⟩ : ∃ n : Nat, e = -n := ⟨(-e).toNat, by omega⟩
      rw [zpow_neg, zpow_neg, zpow_natCast, zpow_natCast]
      gcongr
      norm_num
    have hpowers : m * (10 : ℚ) ^ e < 2 ^ (-1075 : Int) := by
      calc (m : ℚ) * 10 ^ e ≤ 2 ^ ((m.log2 + 1 : Nat) : Int) * 2 ^ e := by gcongr
        _ = 2 ^ (((m.log2 + 1 : Nat) : Int) + e) := (zpow_add₀ two_ne_zero _ _).symm
        _ < 2 ^ (-1075 : Int) := zpow_lt_zpow_right₀ (by norm_num) (by push_cast; omega)
    exact hlow.not_gt hpowers

theorem Nearest.model_ofScientific_eq (hb : b.Canonical) {m : Nat} {e : Int} (hm : 0 < m)
    (hq : b.Nearest (m * 10 ^ e)) : Float.Model.ofScientific m e = hb.toModel := by
  obtain ⟨hhigh, hlow⟩ := hq.exponent_bounds hb hm
  have hbound : (2 : Int) ^ Format.binary64.exponentBits = 2048 := rfl
  have hbits : Format.binary64.mantissaBits = 53 := rfl
  unfold Float.Model.ofScientific UnpackedFloat.ofScientific
  rw [dif_neg hm.ne', hbound, if_neg (not_lt.2 hhigh), if_neg (not_lt.2 hlow)]
  apply congrArg Float.Model.pack
  split
  next hpos =>
    obtain ⟨n, rfl⟩ : ∃ n : Nat, e = n := ⟨e.toNat, by omega⟩
    refine hq.mul_eq hb _ _ ?_ ?_
    · rw [hbits, Nat.shiftLeft_eq, Int.toNat_natCast, zpow_neg, zpow_natCast, zpow_natCast,
        zpow_zero]
      push_cast
      field_simp
      norm_num
    · rw [hbits, Nat.shiftLeft_eq]
      have hpower : 0 < 10 ^ (n : Int).toNat := Nat.pow_pos (by norm_num)
      nlinarith
  next hneg =>
    obtain ⟨n, rfl⟩ : ∃ n : Nat, e = -n := ⟨(-e).toNat, by omega⟩
    refine hq.div_eq hb _ _ ?_
    rw [neg_neg, Int.toNat_natCast, zpow_neg, zpow_natCast, zpow_zero, div_eq_mul_inv]
    push_cast
    rw [mul_one, mul_one]

/-- Small numbers are scaled by an exact power of ten, and others by the model. -/
theorem Nearest.ofScientific_eq (hb : b.Canonical) {m e : Nat} {negative : Bool} (hm : 0 < m)
    (hq : b.Nearest (m * 10 ^ (if negative then -(e : Int) else e))) :
    Float.ofScientific m negative e = .ofModel hb.toModel := by
  unfold Float.ofScientific
  split
  next hsmall =>
    obtain ⟨hlt, he⟩ := hsmall
    obtain ⟨x, hx, hunpack, hnormal, hvalue⟩ := unpack_ofNat hm hlt (Nat.zero_le 22)
    obtain ⟨y, hy, hunpack', hnormal', hvalue'⟩ := unpack_power he
    rw [← toModel_toFloat hlt] at hunpack
    rw [← power_eq ⟨e, Nat.lt_succ_of_le he⟩] at hunpack'
    rw [pow_zero, mul_one] at hvalue
    cases negative with
    | true =>
      have hquotient := hq.div_eq hb hx hy (by
        change _ = x.value / y.value
        rw [hvalue, hvalue', if_pos rfl, zpow_neg, zpow_natCast, div_eq_mul_inv])
      rw [← hunpack, ← hunpack'] at hquotient
      exact congrArg (fun u => Float.ofModel (.pack u)) hquotient
    | false =>
      have hproduct := hq.mul_eq hb hx hy (by
        change _ = x.value * y.value
        rw [hvalue, hvalue', if_neg Bool.false_ne_true, zpow_natCast])
        (by nlinarith)
      rw [← hunpack, ← hunpack'] at hproduct
      exact congrArg (fun u => Float.ofModel (.pack u)) hproduct
  next =>
    apply congrArg Float.ofModel
    cases negative with
    | true =>
      rw [if_pos rfl, Int.negOfNat_eq]
      exact hq.model_ofScientific_eq hb hm
    | false => exact hq.model_ofScientific_eq hb hm

/-- Digits are read as the value that their number is nearest to, which is never
out of range. -/
theorem Nearest.nearestFloat_eq (hb : b.Canonical) {m length : Nat} {e : Int} (hm : 0 < m)
    (hlt : m < 10 ^ length) (hle : 10 ^ length ≤ 10 * m) (hq : b.Nearest (m * 10 ^ e)) :
    nearestFloat m length e = .ofModel hb.toModel := by
  obtain ⟨hlow, hhigh⟩ := hq.bounds hb
  have hunit : (0 : ℚ) < 10 ^ e := by positivity
  have hscale : (10 : ℚ) ^ ((length : Int) + e) = 10 ^ length * 10 ^ e := by
    rw [zpow_add₀ (by norm_num), zpow_natCast]
  have hbelow : (m : ℚ) * 10 ^ e < 10 ^ ((length : Int) + e) := by
    rw [hscale]
    exact mul_lt_mul_of_pos_right (by exact_mod_cast hlt) hunit
  have habove : (10 : ℚ) ^ ((length : Int) + e) ≤ 10 * (m * 10 ^ e) := by
    rw [hscale, ← mul_assoc]
    exact mul_le_mul_of_nonneg_right (by exact_mod_cast hle) hunit.le
  have hlarge : ¬ 310 < (length : Int) + e := by
    intro h
    have hpower : (10 : ℚ) ^ (311 : Int) ≤ 10 ^ ((length : Int) + e) :=
      zpow_le_zpow_right₀ (by norm_num) (by omega)
    have hvalues : 10 * 2 ^ 1024 ≤ 10 ^ 311 := by decide +kernel
    have hvalues' : (10 : ℚ) * 2 ^ (1024 : Int) ≤ 10 ^ (311 : Int) := by exact_mod_cast hvalues
    have hbelow' := mul_lt_mul_of_pos_left hhigh (show (0 : ℚ) < 10 by norm_num)
    exact (hbelow'.trans_le (hvalues'.trans (hpower.trans habove))).false
  have hsmall : ¬ (length : Int) + e < -330 := by
    intro h
    have hpower : (10 : ℚ) ^ ((length : Int) + e) ≤ 10 ^ (-331 : Int) :=
      zpow_le_zpow_right₀ (by norm_num) (by omega)
    have hvalues : 2 ^ 1075 ≤ 10 ^ 331 := by decide +kernel
    have hvalues' : (10 : ℚ) ^ (-331 : Int) ≤ 2 ^ (-1075 : Int) := by
      rw [zpow_neg, zpow_neg]
      exact inv_anti₀ (by positivity) (by exact_mod_cast hvalues)
    exact (hlow.trans_lt (hbelow.trans_le (hpower.trans hvalues'))).false
  unfold nearestFloat
  rw [if_neg hm.ne', if_neg hlarge, if_neg hsmall]
  split
  next hneg =>
    obtain ⟨n, rfl⟩ : ∃ n : Nat, e = -n := ⟨(-e).toNat, by omega⟩
    rw [neg_neg, Int.toNat_natCast]
    exact Nearest.ofScientific_eq hb hm hq
  next hpos =>
    obtain ⟨n, rfl⟩ : ∃ n : Nat, e = n := ⟨e.toNat, by omega⟩
    rw [Int.toNat_natCast]
    exact Nearest.ofScientific_eq hb hm hq

end Binary

/-! ## Texts -/

namespace Binary

variable {b : Binary}

theorem significant_append_zeros (d : Nat) :
    ∃ n, Nat.toDigits 10 d = significant d ++ List.replicate n '0' := by
  have hsplit :=
    List.takeWhile_append_dropWhile (p := (· = '0')) (l := (Nat.toDigits 10 d).reverse)
  have hzeros : ∀ c ∈ (Nat.toDigits 10 d).reverse.takeWhile (· = '0'), c = '0' :=
    fun c hc => by simpa using List.mem_takeWhile_imp hc
  rw [List.eq_replicate_of_mem hzeros] at hsplit
  have hreverse := congrArg List.reverse hsplit
  rw [List.reverse_append, List.reverse_reverse, List.reverse_replicate] at hreverse
  exact ⟨_, hreverse.symm⟩

theorem value_significant (d places : Nat) (point : Int) :
    (⟨significant d, point + ((Nat.toDigits 10 d).length - places)⟩ : Digits).value =
      d * 10 ^ (point - places) := by
  obtain ⟨n, hn⟩ := significant_append_zeros d
  have hd := congrArg natOfDigits hn
  rw [natOfDigits_toDigits, natOfDigits_append, natOfDigits_zeros,
    List.length_replicate] at hd
  have hlength := congrArg List.length hn
  rw [List.length_append, List.length_replicate] at hlength
  have hexponent : point + (((Nat.toDigits 10 d).length : Int) - places) -
      (significant d).length = n + (point - places) := by omega
  conv_rhs => rw [hd]
  rw [Digits.value, hexponent, zpow_add₀ (by norm_num), zpow_natCast]
  push_cast
  ring

/-- The shortest digits stand for a number that the value is nearest to. -/
theorem Nearest.digitsOf (hb : b.Positive) (tie : Tie) :
    b.Nearest (b.digitsOf tie).value := by
  obtain ⟨places, d, hd, hdigits⟩ := digitsOf_eq hb tie
  obtain ⟨hden, hvalue⟩ := multiple_spec d (b.point - places)
  have hq := Nearest.of_readsBack hden (readsBack_of_nearest? hd)
  rwa [hvalue, ← value_significant, ← hdigits] at hq

/-- Zeros before a number do not change what it is read as. -/
theorem Nearest.nearestFloat_dropWhile (hb : b.Canonical) {cs : List Char} {e : Int}
    (hcs : ∀ c ∈ cs, c.isDigit) (hq : b.Nearest (natOfDigits cs * 10 ^ e)) :
    nearestFloat (natOfDigits (cs.dropWhile (· = '0')))
      (cs.dropWhile (· = '0')).length e = .ofModel hb.toModel := by
  have hpos : 0 < natOfDigits cs := by
    by_contra hzero
    have hvalue := hq.pos hb.toPositive
    rw [Nat.eq_zero_of_not_pos hzero, Nat.cast_zero, zero_mul] at hvalue
    exact hvalue.false
  rw [← natOfDigits_dropWhile] at hpos hq
  have hdigits : ∀ c ∈ cs.dropWhile (· = '0'), c.isDigit := fun c hc =>
    hcs c ((List.dropWhile_sublist _).mem hc)
  have hhead := List.head?_dropWhile_not (· = '0') cs
  cases hdrop : cs.dropWhile (· = '0') with
  | nil =>
    rw [hdrop] at hpos
    exact absurd hpos (Nat.lt_irrefl 0)
  | cons c rest =>
    rw [hdrop] at hpos hq hdigits hhead
    refine hq.nearestFloat_eq hb hpos (natOfDigits_lt hdigits) (le_natOfDigits ?_ ?_)
    · exact hdigits c List.mem_cons_self
    · simpa using hhead

end Binary

/-- What is behind the digits before a point: those behind it, and the exponent. -/
def splitFraction : List Char → List Char × List Char
  | '.' :: rest => (rest.takeWhile Char.isDigit, rest.dropWhile Char.isDigit)
  | rest => ([], rest)

theorem splitFraction_point {fraction tail : List Char}
    (hfraction : ∀ c ∈ fraction, c.isDigit) (htail : ∀ c ∈ tail.head?, c.isDigit = false) :
    splitFraction ('.' :: (fraction ++ tail)) = (fraction, tail) := by
  obtain ⟨htake, hdrop⟩ := takeWhile_dropWhile_digits hfraction htail
  rw [splitFraction, htake, hdrop]

/-- No name begins with a digit. -/
theorem not_isName {c : Char} (hc : c.isDigit) (cs : List Char) {name : String}
    (hname : name.toList.head?.all (!·.isDigit)) :
    String.ofList ((c :: cs).map Char.toLower) ≠ name := by
  rintro rfl
  simp [toLower_of_isDigit hc, hc] at hname

namespace Binary

variable {b : Binary} {whole rest fraction tail : List Char} {e : Int}

/-- Digits are read as the value that their number is nearest to. -/
theorem Nearest.readUnsigned?_eq (hb : b.Canonical) (hne : whole ≠ [])
    (hwhole : ∀ c ∈ whole, c.isDigit) (hrest : ∀ c ∈ rest.head?, c.isDigit = false)
    (hsplit : splitFraction rest = (fraction, tail)) (hfraction : ∀ c ∈ fraction, c.isDigit)
    (hexponent : readExponent? tail = some e)
    (hq : b.Nearest (natOfDigits (whole ++ fraction) * 10 ^ (e - fraction.length))) :
    readUnsigned? (whole ++ rest) = some (.ofModel hb.toModel) := by
  obtain ⟨htake, hdrop⟩ := takeWhile_dropWhile_digits hwhole hrest
  have hdigits : ∀ c ∈ whole ++ fraction, c.isDigit := fun c hc =>
    (List.mem_append.1 hc).elim (hwhole c) (hfraction c)
  have hname {name : String} (h : name.toList.head?.all (!·.isDigit)) :
      String.ofList ((whole ++ rest).map Char.toLower) ≠ name := by
    obtain ⟨c, whole, rfl⟩ := List.exists_cons_of_ne_nil hne
    exact not_isName (hwhole c List.mem_cons_self) _ h
  have hempty : (whole.isEmpty && fraction.isEmpty) = false := by simp [hne]
  change (if _ then _ else if _ then _ else
    let split := splitFraction ((whole ++ rest).dropWhile Char.isDigit)
    if ((whole ++ rest).takeWhile Char.isDigit).isEmpty && split.1.isEmpty then none
    else (readExponent? split.2).map fun e =>
      let digits := ((whole ++ rest).takeWhile Char.isDigit ++ split.1).dropWhile (· = '0')
      nearestFloat (natOfDigits digits) digits.length (e - split.1.length)) = _
  rw [if_neg (not_or.2 ⟨hname (by decide), hname (by decide)⟩), if_neg (hname (by decide)),
    htake, hdrop, hsplit]
  dsimp only
  rw [hempty, hexponent, if_neg Bool.false_ne_true, Option.map_some,
    hq.nearestFloat_dropWhile hb hdigits]

end Binary

theorem readExponent?_mark {sign : List Char} (hsign : sign = [] ∨ sign = ['+']) (e : Int) :
    readExponent? ('e' :: (if e < 0 then '-' :: Nat.toDigits 10 (-e).toNat
      else sign ++ Nat.toDigits 10 e.toNat)) = some e := by
  have hread {cs : List Char} {negative : Bool} {n : Nat}
      (htake : takeSign cs = (negative, Nat.toDigits 10 n)) :
      readExponent? ('e' :: cs) = some (if negative then -(n : Int) else n) := by
    have hall := List.all_eq_true.2 fun c => @isDigit_of_mem_toDigits c n
    rw [readExponent?, if_pos (.inl rfl), htake]
    simp [hall, Nat.toDigits_ne_nil, natOfDigits_toDigits]
  split
  next hneg =>
    have htake : takeSign ('-' :: Nat.toDigits 10 (-e).toNat) =
        (true, Nat.toDigits 10 (-e).toNat) := rfl
    rw [hread htake, if_pos rfl]
    congr
    omega
  next hpos =>
    have htake : takeSign (sign ++ Nat.toDigits 10 e.toNat) =
        (false, Nat.toDigits 10 e.toNat) := by
      rcases hsign with rfl | rfl
      · obtain ⟨c, cs, hcs⟩ :=
          List.exists_cons_of_ne_nil (Nat.toDigits_ne_nil (n := e.toNat) (b := 10))
        rw [List.nil_append, hcs]
        exact takeSign_of_isDigit (isDigit_of_mem_toDigits (hcs ▸ List.mem_cons_self)) cs
      · rfl
    rw [hread htake, if_neg Bool.false_ne_true]
    congr
    omega

theorem readFloat?_sign {negative : Bool} {c : Char} {cs : List Char} {x : Float}
    (hc : c.isDigit) (h : readUnsigned? (c :: cs) = some x) :
    readFloat? (sign negative ++ c :: cs) = some (if negative then -x else x) := by
  unfold readFloat?
  rw [takeSign_sign negative hc]
  dsimp only
  rw [h, Option.map_some]

theorem readUnsigned?_zero :
    readUnsigned? ['0', '.', '0'] = some (.ofModel (.pack (.zero .positive))) := by
  have hzero : (0 : Float) = .ofModel (.pack (.zero .positive)) :=
    congrArg Float.ofModel (show (0 : Float).toModel = _ by decide +kernel)
  rw [← hzero]
  rfl

theorem neg_zero :
    -Float.ofModel (.pack (.zero .positive)) = .ofModel (.pack (.zero .negative)) :=
  congrArg Float.ofModel (by decide +kernel)

namespace Layout

variable {b : Binary} {d : Digits} {layout : Layout}

theorem readUnsigned?_plain (hb : b.Canonical) (hdigits : ∀ c ∈ d.digits, c.isDigit)
    (hq : b.Nearest d.value) : readUnsigned? (plain d) = some (.ofModel hb.toModel) := by
  obtain ⟨whole, fraction, hplain, hne, hwhole, hfraction, hvalue⟩ := plain_eq hdigits
  have hsplit : splitFraction ('.' :: (fraction ++ [])) = (fraction, []) :=
    splitFraction_point hfraction (by simp)
  rw [List.append_nil] at hsplit
  rw [hplain]
  refine Binary.Nearest.readUnsigned?_eq hb hne hwhole (by simp) hsplit hfraction rfl ?_
  rwa [zero_sub, hvalue]

theorem readUnsigned?_scientific (hb : b.Canonical)
    (hsign : layout.exponentSign.toList = [] ∨ layout.exponentSign.toList = ['+'])
    (hne : d.digits ≠ []) (hdigits : ∀ c ∈ d.digits, c.isDigit) (hq : b.Nearest d.value) :
    readUnsigned? (layout.scientific d) = some (.ofModel hb.toModel) := by
  have hmark := readExponent?_mark hsign (d.point - 1)
  obtain ⟨first, rest, hd⟩ := List.exists_cons_of_ne_nil hne
  rw [Digits.value, hd] at hq
  rw [hd] at hdigits
  obtain ⟨hfirst, hrest⟩ := List.forall_mem_cons.1 hdigits
  unfold scientific
  dsimp only
  generalize (if d.point - 1 < 0 then '-' :: Nat.toDigits 10 (-(d.point - 1)).toNat
    else layout.exponentSign.toList ++ Nat.toDigits 10 (d.point - 1).toNat) = mark at hmark ⊢
  have hstop : ∀ c ∈ ('e' :: mark).head?, c.isDigit = false := by simp
  rw [hd]
  cases rest with
  | nil =>
    have hsplit : splitFraction ('e' :: mark) = ([], 'e' :: mark) := rfl
    exact Binary.Nearest.readUnsigned?_eq hb (List.cons_ne_nil first []) hdigits hstop
      hsplit (by simp) hmark (by simpa using hq)
  | cons second rest =>
    refine Binary.Nearest.readUnsigned?_eq hb (List.cons_ne_nil first [])
      (by simpa using hfirst) (by simp) (splitFraction_point hrest hstop) hrest hmark ?_
    have hexponent : d.point - 1 - ((second :: rest).length : Int) =
        d.point - (first :: second :: rest).length := by
      simp only [List.length_cons]
      omega
    rwa [hexponent]

/-- A finite number is read back from its text. -/
theorem readFloat?_write
    (hsign : layout.exponentSign.toList = [] ∨ layout.exponentSign.toList = ['+'])
    {x : Float} (hx : x.isFinite = true) : readFloat? (layout.write x).toList = some x := by
  have hsignOf := signOf_eq x.toModel
  change signOf x.toModel = if x.toBits >>> 63 == 1 then .negative else .positive at hsignOf
  obtain ⟨c, rest, hbody, hc⟩ := body_begins layout Binary.ofBits_positive
  rw [toList_write layout hx, hbody]
  have hpack : Float.ofModel (.pack x.toModel.unpack) = x := Float.ofBits_toBits x
  by_cases hmantissa : (Binary.ofBits x.toBits).mantissa = 0
  · rw [body, if_pos hmantissa] at hbody
    rw [readFloat?_sign hc (hbody ▸ readUnsigned?_zero)]
    rw [unpack_eq_zero hmantissa, hsignOf] at hpack
    split at hpack
    next hnegative => rw [if_pos hnegative, neg_zero, hpack]
    next hpositive => rw [if_neg hpositive, hpack]
  · have hb := canonical_ofBits hx hmantissa
    obtain ⟨hne, hdigits⟩ := Binary.digitsOf_spec hb.toPositive layout.tie
    have hq := Binary.Nearest.digitsOf hb.toPositive layout.tie
    have hread : readUnsigned? (c :: rest) = some (.ofModel hb.toModel) := by
      rw [← hbody, body, if_neg hmantissa]
      dsimp only
      split
      · exact readUnsigned?_plain hb hdigits hq
      · exact readUnsigned?_scientific hb hsign hne hdigits hq
    rw [readFloat?_sign hc hread]
    rw [unpack_eq_finite hx hb.mantissa_pos, hsignOf] at hpack
    split at hpack
    next hnegative => rw [if_pos hnegative, hb.neg_toModel, hpack]
    next hpositive =>
      rw [if_neg hpositive]
      exact congrArg some hpack

end Layout

end GovernedCatalog.Decimal
