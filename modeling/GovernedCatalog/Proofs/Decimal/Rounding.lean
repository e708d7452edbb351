import Mathlib
import GovernedCatalog.Decimal.Reading
import GovernedCatalog.Proofs.Decimal.Shortest

/-!
# Rounding to the nearest value

A number is nearest to a value if it lies between the midpoints around it, and on
one of them only if the value is even.  Products, quotients and decimal numbers
are rounded to the value that they are nearest to: the mantissa at the first
exponent that has room for it represents the number up to what is below one unit,
and the shifts from there keep track of how that compares with one half.
-/

namespace GovernedCatalog.Decimal

open Float.Model (Format UnpackedFloat totalExponent)
open Float.Model.UnpackedFloat (Accuracy ExtendedMantissa Sign accuracyOfFraction
  shiftToTargetExponent roundWithAccuracy)

/-! ## A mantissa and what is behind it -/

/-- The bits behind the mantissa say how the rest of the number compares with
one half. -/
structure Represents (em : ExtendedMantissa) (x : ℚ) : Prop where
  floor : em.mantissa ≤ x
  next : x < em.mantissa + 1
  round : em.roundBit = true ↔ (em.mantissa : ℚ) + 1 / 2 ≤ x
  sticky : em.stickyBit = true ↔ x ≠ em.mantissa ∧ x ≠ em.mantissa + 1 / 2

namespace Represents

variable {em : ExtendedMantissa} {x : ℚ}

theorem half (h : Represents em x) : Represents em.shiftRightOne (x / 2) := by
  obtain ⟨hfloor, hnext, hround, hsticky⟩ := h
  have hdiv : (em.mantissa : ℚ) = 2 * (em.mantissa / 2 : Nat) + (em.mantissa % 2 : Nat) := by
    exact_mod_cast (Nat.div_add_mod em.mantissa 2).symm
  have hinexact : (em.roundBit || em.stickyBit) = true ↔ x ≠ em.mantissa := by
    rw [Bool.or_eq_true, hround, hsticky]
    constructor
    · rintro (h | h)
      · intro heq
        linarith
      · exact h.1
    · intro hne
      by_cases hhalf : (em.mantissa : ℚ) + 1 / 2 ≤ x
      · exact .inl hhalf
      · exact .inr ⟨hne, fun heq => hhalf heq.ge⟩
  unfold ExtendedMantissa.shiftRightOne
  rcases Nat.mod_two_eq_zero_or_one em.mantissa with hmod | hmod
  all_goals
    rw [hmod] at hdiv
    push_cast at hdiv
  · refine ⟨by dsimp only; linarith, by dsimp only; linarith, ?_, ?_⟩
    · simp only [hmod]
      refine iff_of_false (by decide) fun h => ?_
      linarith
    · rw [hinexact]
      constructor
      · exact fun hne => ⟨fun h => hne (by linarith), fun h => by linarith⟩
      · exact fun hne heq => hne.1 (by linarith)
  · refine ⟨by dsimp only; linarith, by dsimp only; linarith, ?_, ?_⟩
    · simp only [hmod]
      exact iff_of_true (by decide) (by linarith)
    · rw [hinexact]
      constructor
      · exact fun hne => ⟨fun h => by linarith, fun h => hne (by linarith)⟩
      · exact fun hne heq => hne.2 (by linarith)

theorem shift (h : Represents em x) (n : Nat) : Represents (em >>> n) (x / 2 ^ n) := by
  induction n with
  | zero =>
    rw [pow_zero, div_one]
    exact h
  | succ n ih =>
    have hshift : em >>> (n + 1) = (em >>> n).shiftRightOne := rfl
    rw [hshift, pow_succ, ← div_div]
    exact ih.half

/-- The nearest whole number is taken; of two, the even one. -/
theorem roundedMantissa_eq (h : Represents em x) {n : Nat} (hlow : (n : ℚ) - 1 / 2 ≤ x)
    (hhigh : x ≤ n + 1 / 2)
    (hodd : n % 2 = 1 → (n : ℚ) - 1 / 2 < x ∧ x < n + 1 / 2) :
    em.roundedMantissa = n := by
  obtain ⟨hfloor, hnext, hround, hsticky⟩ := h
  obtain ⟨m, r, s⟩ := em
  dsimp only at hfloor hnext hround hsticky
  unfold ExtendedMantissa.roundedMantissa
  cases r <;> cases s
  all_goals
    simp only [ExtendedMantissa.accuracy, Accuracy.roundToNearestEven]
    simp only [Bool.false_eq_true, false_iff, true_iff, not_le, not_and_or, not_not]
      at hround hsticky
  · have hx : x = m := hsticky.resolve_right fun h => by linarith
    have hle : (m : ℚ) < n + 1 ∧ (n : ℚ) < m + 1 := ⟨by linarith, by linarith⟩
    norm_cast at hle
    omega
  · have hle : (m : ℚ) < n + 1 ∧ (n : ℚ) < m + 1 := ⟨by linarith, by linarith⟩
    norm_cast at hle
    omega
  · have hx : x = m + 1 / 2 := hsticky.resolve_left fun h => by linarith
    have hle : (m : ℚ) ≤ n ∧ (n : ℚ) ≤ m + 1 := ⟨by linarith, by linarith⟩
    norm_cast at hle
    have heven : n % 2 = 0 := by
      by_contra hne
      obtain ⟨hlow', hhigh'⟩ := hodd (by omega)
      rw [hx] at hlow' hhigh'
      have hlt : (m : ℚ) < n ∧ (n : ℚ) < m + 1 := ⟨by linarith, by linarith⟩
      norm_cast at hlt
      omega
    omega
  · have hlt : (m : ℚ) < n ∧ (n : ℚ) < m + 2 := ⟨by
      rcases lt_or_eq_of_le hround with hlt | heq
      · linarith
      · exact absurd heq.symm hsticky.2, by linarith⟩
    norm_cast at hlt
    omega

theorem exact (m : Nat) :
    Represents (ExtendedMantissa.ofMantissaAndAccuracy m .exact) m := by
  refine ⟨le_refl _, by simp [ExtendedMantissa.ofMantissaAndAccuracy], ?_, ?_⟩
  · simp [ExtendedMantissa.ofMantissaAndAccuracy]
  · simp [ExtendedMantissa.ofMantissaAndAccuracy]

theorem fraction (m : Nat) {num den : Nat} (h : num < den) :
    Represents (ExtendedMantissa.ofMantissaAndAccuracy m (accuracyOfFraction num den))
      (m + num / den) := by
  have hden : (0 : ℚ) < den := by exact_mod_cast Nat.zero_lt_of_lt h
  have hlt : (num : ℚ) / den < 1 := by
    rw [div_lt_one hden]
    exact_mod_cast h
  by_cases hnum : num = 0
  · rw [hnum, accuracyOfFraction, if_pos rfl, Nat.cast_zero, zero_div, add_zero]
    exact exact m
  have hpos : (0 : ℚ) < num / den := by
    have hnum' : (0 : ℚ) < num := by exact_mod_cast Nat.pos_of_ne_zero hnum
    exact div_pos hnum' hden
  rw [accuracyOfFraction, if_neg hnum]
  cases hcompare : compare (2 * num) den with
  | lt =>
    have hhalf : (num : ℚ) / den < 1 / 2 := by
      rw [div_lt_div_iff₀ hden two_pos, one_mul, mul_comm]
      exact_mod_cast Nat.compare_eq_lt.1 hcompare
    change Represents ⟨m, false, true⟩ _
    refine ⟨by dsimp only; linarith, by dsimp only; linarith, ?_, ?_⟩ <;> dsimp only
    · exact iff_of_false Bool.false_ne_true fun h => by linarith
    · exact iff_of_true rfl ⟨fun h => by linarith, fun h => by linarith⟩
  | eq =>
    have hhalf : (num : ℚ) / den = 1 / 2 := by
      rw [div_eq_div_iff hden.ne' two_ne_zero, one_mul, mul_comm]
      exact_mod_cast Nat.compare_eq_eq.1 hcompare
    rw [hhalf]
    change Represents ⟨m, true, false⟩ _
    refine ⟨by dsimp only; linarith, by dsimp only; linarith, ?_, ?_⟩ <;> dsimp only
    · exact iff_of_true rfl (le_refl _)
    · exact iff_of_false Bool.false_ne_true fun h => h.2 rfl
  | gt =>
    have hhalf : 1 / 2 < (num : ℚ) / den := by
      rw [div_lt_div_iff₀ two_pos hden, one_mul, mul_comm (num : ℚ)]
      exact_mod_cast Nat.compare_eq_gt.1 hcompare
    change Represents ⟨m, true, true⟩ _
    refine ⟨by dsimp only; linarith, by dsimp only; linarith, ?_, ?_⟩ <;> dsimp only
    · exact iff_of_true rfl (by linarith)
    · exact iff_of_true rfl ⟨fun h => by linarith, fun h => by linarith⟩

end Represents

/-! ## Values and the numbers that are nearest to them -/

theorem two_zpow_add (k : Nat) (e : Int) : (2 : ℚ) ^ (k + e) = 2 ^ k * 2 ^ e := by
  rw [zpow_add₀ two_ne_zero, zpow_natCast]

namespace Binary

/-- A value of 64 bits with all the bits of its mantissa. -/
structure Canonical (b : Binary) : Prop extends b.Positive where
  exponent_le : b.exponent ≤ 971
  normal : 2 ^ 52 ≤ b.mantissa ∨ b.exponent = -1074

/-- No other value is nearer to the number, and if another is as near, this one
is even. -/
structure Nearest (b : Binary) (q : ℚ) : Prop where
  low : b.midpoints.1.value ≤ q
  high : q ≤ b.midpoints.2.value
  odd : b.mantissa % 2 = 1 → b.midpoints.1.value < q ∧ q < b.midpoints.2.value

variable {b : Binary} {q : ℚ}

theorem value_high (b : Binary) :
    b.midpoints.2.value = (b.mantissa + 1 / 2) * 2 ^ b.exponent := by
  simp only [midpoints, Ratio.value_mulPow, Ratio.value_ofNat]
  rw [Nat.cast_ofNat, zpow_sub₀ two_ne_zero]
  push_cast
  ring

theorem value_low_ge (hb : b.Positive) :
    (b.mantissa - 1 / 2) * 2 ^ b.exponent ≤ b.midpoints.1.value := by
  obtain ⟨gap, -, hgap, -, hlow⟩ := below_eq hb
  have hquarter : (0 : ℚ) < 2 ^ (b.exponent - 2) := by positivity
  have hunit : (2 : ℚ) ^ b.exponent = 4 * 2 ^ (b.exponent - 2) := by
    rw [zpow_sub₀ two_ne_zero]
    ring
  rw [hlow, hunit]
  nlinarith

/-- Below a power of two the next value is nearer. -/
theorem value_low_power (hmantissa : b.mantissa = 2 ^ 52) (hexponent : -1074 < b.exponent) :
    b.midpoints.1.value = (2 ^ 53 - 1 / 2) * 2 ^ (b.exponent - 1) := by
  have hpower : b.mantissa = fractionBound ∧ -1074 < b.exponent := ⟨hmantissa, hexponent⟩
  have hunit : (2 : ℚ) ^ (b.exponent - 1) = 2 * 2 ^ (b.exponent - 2) := by
    rw [← zpow_one_add₀ two_ne_zero]
    congr 1
    ring
  simp only [midpoints, if_pos hpower, Ratio.value_mulPow, Ratio.value_ofNat]
  rw [hmantissa, hunit, Nat.cast_ofNat]
  norm_num
  ring

namespace Nearest

theorem of_readsBack {r : Ratio} (hr : 0 < r.den) (h : b.readsBack r = true) :
    b.Nearest r.value := by
  obtain ⟨hlow, hhigh⟩ := b.den_midpoints_pos
  rw [readsBack_eq] at h
  split at h
  next heven =>
    obtain ⟨hbelow, habove⟩ := Bool.and_eq_true_iff.1 h
    rw [Bool.not_eq_true', ← Bool.not_eq_true, Ratio.lt_iff hr hlow, not_lt] at hbelow
    rw [Bool.not_eq_true', ← Bool.not_eq_true, Ratio.lt_iff hhigh hr, not_lt] at habove
    exact ⟨hbelow, habove, fun hodd => absurd heven (by omega)⟩
  next =>
    obtain ⟨hbelow, habove⟩ := Bool.and_eq_true_iff.1 h
    rw [Ratio.lt_iff hlow hr] at hbelow
    rw [Ratio.lt_iff hr hhigh] at habove
    exact ⟨hbelow.le, habove.le, fun _ => ⟨hbelow, habove⟩⟩

theorem self (hb : b.Positive) : b.Nearest b.value := by
  obtain ⟨-, hbelow, habove, -⟩ := midpoints_bounds hb
  exact ⟨hbelow.le, habove.le, fun _ => ⟨hbelow, habove⟩⟩

theorem pos (hb : b.Positive) (hq : b.Nearest q) : 0 < q :=
  (midpoints_bounds hb).1.trans_le hq.low

theorem lt (hb : b.Positive) (hq : b.Nearest q) : q < 2 ^ (53 + b.exponent) := by
  have hunit : (0 : ℚ) < 2 ^ b.exponent := by positivity
  have hmantissa : (b.mantissa : ℚ) + 1 ≤ 2 ^ 53 := by exact_mod_cast hb.mantissa_lt
  have hhigh := hq.high
  rw [value_high] at hhigh
  refine hhigh.trans_lt (lt_of_lt_of_eq ?_ (two_zpow_add 53 _).symm)
  exact mul_lt_mul_of_pos_right (by linarith) hunit

/-- Out of the range of the exponents there is no value. -/
theorem bounds (hb : b.Canonical) (hq : b.Nearest q) :
    (2 : ℚ) ^ (-1075 : Int) ≤ q ∧ q < 2 ^ (1024 : Int) := by
  constructor
  · have hmantissa : (1 : ℚ) ≤ b.mantissa := by exact_mod_cast hb.mantissa_pos
    have hscale : (2 : ℚ) ^ (-1074 : Int) ≤ 2 ^ b.exponent :=
      zpow_le_zpow_right₀ (by norm_num) hb.exponent_ge
    calc (2 : ℚ) ^ (-1075 : Int) = 1 / 2 * 2 ^ (-1074 : Int) := by
          rw [show (-1075 : Int) = -1 + -1074 by norm_num, zpow_add₀ two_ne_zero]
          norm_num
      _ ≤ (b.mantissa - 1 / 2) * 2 ^ b.exponent := by
          exact mul_le_mul (by linarith) hscale (by positivity) (by linarith)
      _ ≤ q := (value_low_ge hb.toPositive).trans hq.low
  · refine (hq.lt hb.toPositive).trans_le (zpow_le_zpow_right₀ (by norm_num) ?_)
    have := hb.exponent_le
    omega

/-- A number has as many bits as the value that it is nearest to, or it is just
below a power of two. -/
theorem scale (hb : b.Canonical) (hq : b.Nearest q) :
    (b.exponent = -1074 ∨ (2 : ℚ) ^ (52 + b.exponent) ≤ q) ∨
      b.mantissa = 2 ^ 52 ∧ -1074 < b.exponent ∧ q < 2 ^ (52 + b.exponent) ∧
        (2 ^ 53 - 1 / 2) * 2 ^ (b.exponent - 1) ≤ q := by
  by_cases hleast : b.exponent = -1074
  · exact .inl (.inl hleast)
  by_cases hlow : (2 : ℚ) ^ (52 + b.exponent) ≤ q
  · exact .inl (.inr hlow)
  have hunit : (0 : ℚ) < 2 ^ b.exponent := by positivity
  have hlt : (b.mantissa : ℚ) < 2 ^ 52 + 1 := by
    by_contra hge
    have hbelow := (value_low_ge hb.toPositive).trans hq.low
    refine hlow (le_trans ?_ hbelow)
    refine (two_zpow_add 52 _).trans_le ?_
    gcongr
    linarith
  have hmantissa : b.mantissa = 2 ^ 52 := by
    have hlt' : b.mantissa < 2 ^ 52 + 1 := by exact_mod_cast hlt
    have := hb.normal.resolve_right hleast
    omega
  have hexponent : -1074 < b.exponent := lt_of_le_of_ne hb.exponent_ge (Ne.symm hleast)
  refine .inr ⟨hmantissa, hexponent, not_le.1 hlow, ?_⟩
  rw [← value_low_power hmantissa hexponent]
  exact hq.low

end Nearest

end Binary

/-! ## Rounding -/

theorem targetExponent_binary64 (total : Int) :
    Format.binary64.targetExponent total = max (total - 53) (-1074) := rfl

/-- The target is where the mantissa has 53 bits, or the least exponent. -/
theorem targetExponent_eq (m : Nat) (e : Int) :
    Format.binary64.targetExponent (totalExponent m e) = max (m.log2 + e - 52) (-1074) := by
  rw [targetExponent_binary64, totalExponent]
  congr 1
  ring

/-- The exponent at which a number has 53 bits, or the least one. -/
theorem targetExponent_eq_of_bounds {m : Nat} {e n : Int} {q : ℚ}
    (hfloor : m * 2 ^ e ≤ q) (hnext : q < (m + 1) * 2 ^ e) (hbits : 2 ^ 52 ≤ m ∨ e ≤ -1074)
    (hn : -1074 ≤ n) (hlow : n = -1074 ∨ (2 : ℚ) ^ (52 + n) ≤ q)
    (hhigh : q < 2 ^ (53 + n)) :
    Format.binary64.targetExponent (totalExponent m e) = n := by
  have hunit : (0 : ℚ) < 2 ^ e := by positivity
  rw [targetExponent_eq]
  have hle : max (m.log2 + e - 52) (-1074) ≤ n := by
    refine max_le ?_ hn
    by_cases hm : m = 0
    · have he := hbits.resolve_left (by omega)
      simp only [hm, Nat.log2_zero]
      omega
    · have hlog : ((2 : ℚ) ^ m.log2) ≤ m := by exact_mod_cast Nat.log2_self_le hm
      have hlt : (2 : ℚ) ^ ((m.log2 : Int) + e) < 2 ^ (53 + n) := by
        rw [zpow_add₀ two_ne_zero, zpow_natCast]
        calc (2 : ℚ) ^ m.log2 * 2 ^ e ≤ m * 2 ^ e := by gcongr
          _ ≤ q := hfloor
          _ < _ := hhigh
      have := (zpow_lt_zpow_iff_right₀ (by norm_num)).1 hlt
      omega
  have hge : n ≤ max (m.log2 + e - 52) (-1074) := by
    rcases hlow with rfl | hlow
    · exact le_max_right _ _
    · have hlog : (m : ℚ) + 1 ≤ 2 ^ (m.log2 + 1) := by exact_mod_cast Nat.lt_log2_self
      have hlt : (2 : ℚ) ^ (52 + n) < 2 ^ ((m.log2 + 1 : Nat) + e) := by
        rw [zpow_add₀ two_ne_zero _ e, zpow_natCast]
        calc (2 : ℚ) ^ (52 + n) ≤ q := hlow
          _ < (m + 1) * 2 ^ e := hnext
          _ ≤ _ := by gcongr
      have := (zpow_lt_zpow_iff_right₀ (by norm_num)).1 hlt
      refine le_max_of_le_left ?_
      push_cast at this
      omega
  exact le_antisymm hle hge

theorem shiftToTargetExponent_eq (m : Nat) (e : Int) (accuracy : Accuracy)
    (h : e ≤ Format.binary64.targetExponent (totalExponent m e)) :
    shiftToTargetExponent Format.binary64 m e accuracy =
      (ExtendedMantissa.ofMantissaAndAccuracy m accuracy >>>
          (Format.binary64.targetExponent (totalExponent m e) - e).toNat,
        Format.binary64.targetExponent (totalExponent m e)) := by
  unfold shiftToTargetExponent UnpackedFloat.shiftToExponent
  simp only [Prod.mk.injEq, true_and]
  omega

theorem log2_eq {m : Nat} (h : 2 ^ 52 ≤ m) (h' : m < 2 ^ 53) : m.log2 = 52 :=
  (Nat.log2_eq_iff (by omega)).2 ⟨h, h'⟩

/-- A canonical mantissa stays where it is. -/
theorem Binary.Canonical.shift {b : Binary} (hb : b.Canonical) :
    shiftToTargetExponent Format.binary64 b.mantissa b.exponent .exact =
      (⟨b.mantissa, false, false⟩, b.exponent) := by
  have hlog : b.mantissa.log2 < 53 :=
    (Nat.log2_lt hb.mantissa_pos.ne').2 hb.mantissa_lt
  have htarget : Format.binary64.targetExponent (totalExponent b.mantissa b.exponent) =
      b.exponent := by
    rw [targetExponent_eq]
    rcases hb.normal with hnormal | hleast
    · have := log2_eq hnormal hb.mantissa_lt
      have := hb.exponent_ge
      omega
    · omega
  rw [shiftToTargetExponent_eq _ _ _ htarget.ge, htarget, Int.sub_self]
  rfl

/-- A mantissa that has overflowed takes one step. -/
theorem shift_overflow {e : Int} (he : -1074 ≤ e) :
    shiftToTargetExponent Format.binary64 (2 ^ 53) e .exact =
      (⟨2 ^ 52, false, false⟩, e + 1) := by
  have htarget : Format.binary64.targetExponent (totalExponent (2 ^ 53) e) = e + 1 := by
    rw [targetExponent_eq, Nat.log2_two_pow]
    omega
  rw [shiftToTargetExponent_eq _ _ _ (by omega), htarget]
  have hstep : (e + 1 - e).toNat = 1 := by omega
  rw [hstep]
  rfl

theorem ofMantissaAndAccuracy_mantissa (m : Nat) (accuracy : Accuracy) :
    (ExtendedMantissa.ofMantissaAndAccuracy m accuracy).mantissa = m := by
  rcases accuracy with _ | order
  · rfl
  · cases order <;> rfl

/-- A mantissa with enough bits still represents the number when it is shifted to
the exponent that the number's size asks for. -/
theorem Represents.shiftToTarget {m : Nat} {e n : Int} {q : ℚ} {accuracy : Accuracy}
    (h : Represents (ExtendedMantissa.ofMantissaAndAccuracy m accuracy) (q / 2 ^ e))
    (hbits : 2 ^ 52 ≤ m ∨ e ≤ -1074) (hn : -1074 ≤ n)
    (hlow : n = -1074 ∨ (2 : ℚ) ^ (52 + n) ≤ q) (hhigh : q < 2 ^ (53 + n)) :
    ∃ em, shiftToTargetExponent Format.binary64 m e accuracy = (em, n) ∧
      Represents em (q / 2 ^ n) := by
  have hunit : (0 : ℚ) < 2 ^ e := by positivity
  have hfloor := h.floor
  have hnext := h.next
  rw [ofMantissaAndAccuracy_mantissa, le_div_iff₀ hunit] at hfloor
  rw [ofMantissaAndAccuracy_mantissa, div_lt_iff₀ hunit] at hnext
  have htarget := targetExponent_eq_of_bounds hfloor hnext hbits hn hlow hhigh
  have hle : e ≤ n := by
    rw [← htarget, targetExponent_eq]
    rcases hbits with hbits | hbits
    · have : 52 ≤ m.log2 := (Nat.le_log2 (by omega)).2 hbits
      omega
    · omega
  refine ⟨_, by rw [shiftToTargetExponent_eq _ _ _ (htarget ▸ hle), htarget], ?_⟩
  have hshift := h.shift (n - e).toNat
  rw [div_div, ← zpow_natCast, ← zpow_add₀ two_ne_zero] at hshift
  have hexponent : e + ((n - e).toNat : Int) = n := by omega
  rwa [hexponent] at hshift

namespace Binary

variable {b : Binary} {q : ℚ}

theorem Nearest.roundedMantissa_eq (hb : b.Positive) (hq : b.Nearest q)
    {em : ExtendedMantissa} (hem : Represents em (q / 2 ^ b.exponent)) :
    em.roundedMantissa = b.mantissa := by
  have hunit : (0 : ℚ) < 2 ^ b.exponent := by positivity
  have hbelow := value_low_ge hb
  refine hem.roundedMantissa_eq ?_ ?_ fun hodd => ?_
  · rw [le_div_iff₀ hunit]
    exact hbelow.trans hq.low
  · rw [div_le_iff₀ hunit, ← value_high]
    exact hq.high
  · obtain ⟨hlow, hhigh⟩ := hq.odd hodd
    rw [lt_div_iff₀ hunit, div_lt_iff₀ hunit, ← value_high]
    exact ⟨hbelow.trans_lt hlow, hhigh⟩

/-- A number is rounded to the value that it is nearest to. -/
theorem Nearest.roundWithAccuracy_eq (hb : b.Canonical) (hq : b.Nearest q) {m : Nat}
    {e : Int} {accuracy : Accuracy}
    (hrepresents : Represents (ExtendedMantissa.ofMantissaAndAccuracy m accuracy) (q / 2 ^ e))
    (hbits : 2 ^ 52 ≤ m ∨ e ≤ -1074) (sign : Sign) :
    roundWithAccuracy Format.binary64 sign m e accuracy =
      .finite sign b.mantissa b.exponent hb.mantissa_pos := by
  unfold roundWithAccuracy
  -- Just below a power of two all 53 bits are ones, and rounding up takes one more.
  rcases hq.scale hb with hlow | ⟨hmantissa, hexponent, hbelow, hlow⟩
  · obtain ⟨em, hshift, hem⟩ := hrepresents.shiftToTarget hbits hb.exponent_ge hlow
      (hq.lt hb.toPositive)
    have hrounded := hq.roundedMantissa_eq hb.toPositive hem
    simp only [hshift, hrounded, hb.shift, dif_neg hb.mantissa_pos.ne']
  · have hunit : (0 : ℚ) < 2 ^ (b.exponent - 1) := by positivity
    have hpower : (2 : ℚ) ^ (52 + (b.exponent - 1)) ≤ q := by
      refine le_trans ?_ hlow
      refine (two_zpow_add 52 _).trans_le ?_
      gcongr
      norm_num
    rw [show 52 + b.exponent = 53 + (b.exponent - 1) by ring] at hbelow
    obtain ⟨em, hshift, hem⟩ := hrepresents.shiftToTarget hbits (by omega) (.inr hpower) hbelow
    have hrounded : em.roundedMantissa = 2 ^ 53 := by
      rw [show (2 : ℚ) ^ (53 + (b.exponent - 1)) = 2 ^ 53 * 2 ^ (b.exponent - 1) from
        two_zpow_add 53 _] at hbelow
      refine hem.roundedMantissa_eq ?_ ?_ (by norm_num)
      · rw [le_div_iff₀ hunit]
        exact_mod_cast hlow
      · rw [div_le_iff₀ hunit]
        push_cast
        linarith
    have hoverflow := shift_overflow (e := b.exponent - 1) (by omega)
    simp only [hshift, hrounded, hoverflow, hmantissa, Int.sub_add_cancel]
    rfl

theorem Nearest.mul_eq (hb : b.Canonical) (hq : b.Nearest q) {m₁ m₂ : Nat} {e₁ e₂ : Int}
    (hm₁ : 0 < m₁) (hm₂ : 0 < m₂) (hvalue : q = m₁ * 2 ^ e₁ * (m₂ * 2 ^ e₂))
    (hbits : 2 ^ 52 ≤ m₁ * m₂) :
    UnpackedFloat.mul Format.binary64 (.finite .positive m₁ e₁ hm₁)
        (.finite .positive m₂ e₂ hm₂) =
      .finite .positive b.mantissa b.exponent hb.mantissa_pos := by
  have hunit : (2 : ℚ) ^ (e₁ + e₂) ≠ 0 := by positivity
  have hexact : q / 2 ^ (e₁ + e₂) = (m₁ * m₂ : Nat) := by
    rw [div_eq_iff hunit, hvalue, zpow_add₀ two_ne_zero]
    push_cast
    ring
  have hrepresents := Represents.exact (m₁ * m₂)
  rw [← hexact] at hrepresents
  exact hq.roundWithAccuracy_eq hb hrepresents (.inl hbits) .positive

theorem Nearest.div_eq (hb : b.Canonical) (hq : b.Nearest q) {m₁ m₂ : Nat} {e₁ e₂ : Int}
    (hm₁ : 0 < m₁) (hm₂ : 0 < m₂) (hvalue : q = m₁ * 2 ^ e₁ / (m₂ * 2 ^ e₂)) :
    UnpackedFloat.div Format.binary64 (.finite .positive m₁ e₁ hm₁)
        (.finite .positive m₂ e₂ hm₂) =
      .finite .positive b.mantissa b.exponent hb.mantissa_pos := by
  unfold UnpackedFloat.div UnpackedFloat.divCore
  dsimp only
  generalize htarget : min (e₁ - e₂) (Format.binary64.targetExponent
    (totalExponent m₁ e₁ - totalExponent m₂ e₂)) = t
  obtain ⟨shift, hshift⟩ : ∃ n : Nat, e₁ - e₂ - t = n :=
    ⟨(e₁ - e₂ - t).toNat, by omega⟩
  rw [hshift, Int.toNat_natCast, Nat.shiftLeft_eq]
  have hm₂' : (m₂ : ℚ) ≠ 0 := by exact_mod_cast hm₂.ne'
  have hexact : q / 2 ^ t =
      (m₁ * 2 ^ shift / m₂ : Nat) + (m₁ * 2 ^ shift % m₂ : Nat) / m₂ := by
    have hdiv : ((m₁ * 2 ^ shift : Nat) : ℚ) =
        m₂ * (m₁ * 2 ^ shift / m₂ : Nat) + (m₁ * 2 ^ shift % m₂ : Nat) := by
      exact_mod_cast (Nat.div_add_mod _ m₂).symm
    have hscale : (2 : ℚ) ^ e₁ = 2 ^ shift * 2 ^ t * 2 ^ e₂ := by
      rw [← zpow_natCast, ← zpow_add₀ two_ne_zero, ← zpow_add₀ two_ne_zero]
      congr 1
      omega
    push_cast at hdiv
    rw [hvalue, hscale]
    field_simp
    rw [hdiv]
  have hrepresents :=
    Represents.fraction (m₁ * 2 ^ shift / m₂) (Nat.mod_lt (m₁ * 2 ^ shift) hm₂)
  rw [← hexact] at hrepresents
  refine hq.roundWithAccuracy_eq hb hrepresents ?_ (.positive / .positive)
  rw [targetExponent_binary64] at htarget
  simp only [totalExponent] at htarget
  by_cases hleast : t ≤ -1074
  · exact .inr hleast
  · refine .inl ((Nat.le_div_iff_mul_le hm₂).2 ?_)
    have hlog₁ := Nat.log2_self_le hm₁.ne'
    have hlog₂ : m₂ < 2 ^ (m₂.log2 + 1) := Nat.lt_log2_self
    have hshift' : 52 + (m₂.log2 + 1) ≤ m₁.log2 + shift := by omega
    calc 2 ^ 52 * m₂ ≤ 2 ^ 52 * 2 ^ (m₂.log2 + 1) := by gcongr
      _ = 2 ^ (52 + (m₂.log2 + 1)) := (pow_add _ _ _).symm
      _ ≤ 2 ^ (m₁.log2 + shift) := Nat.pow_le_pow_right Nat.two_pos hshift'
      _ = 2 ^ m₁.log2 * 2 ^ shift := pow_add _ _ _
      _ ≤ m₁ * 2 ^ shift := by gcongr

theorem ofNat_eq (hb : b.Canonical) {n : Nat} (hvalue : b.value = n) :
    UnpackedFloat.ofNat Format.binary64 n =
      .finite .positive b.mantissa b.exponent hb.mantissa_pos := by
  have hq := Nearest.self hb.toPositive
  have hpos : 0 < n := by exact_mod_cast hvalue ▸ hq.pos hb.toPositive
  have hcompare : compare (n : Int) 0 = .gt := Int.compare_eq_gt.2 (by omega)
  unfold UnpackedFloat.ofNat UnpackedFloat.ofInt UnpackedFloat.normalize
  rw [hcompare]
  unfold UnpackedFloat.round UnpackedFloat.decreaseExponent
  dsimp only
  rw [targetExponent_eq, Int.toNat_natCast]
  obtain ⟨shift, hshift⟩ : ∃ k : Nat, (0 - max ((n.log2 : Int) + 0 - 52) (-1074)).toNat = k :=
    ⟨_, rfl⟩
  rw [hshift, Nat.shiftLeft_eq]
  have hexact : b.value / 2 ^ ((0 : Int) - shift) = (n * 2 ^ shift : Nat) := by
    rw [hvalue, zero_sub, zpow_neg, div_inv_eq_mul, zpow_natCast]
    push_cast
    rfl
  have hrepresents := Represents.exact (n * 2 ^ shift)
  rw [← hexact] at hrepresents
  refine hq.roundWithAccuracy_eq hb hrepresents (.inl ?_) .positive
  have hlog := Nat.log2_self_le hpos.ne'
  calc 2 ^ 52 ≤ 2 ^ (n.log2 + shift) := Nat.pow_le_pow_right Nat.two_pos (by omega)
    _ = 2 ^ n.log2 * 2 ^ shift := pow_add _ _ _
    _ ≤ n * 2 ^ shift := by gcongr

/-- Small numbers are values. -/
theorem exists_canonical {m k : Nat} (hm : 0 < m) (hlt : m < 2 ^ 53) (hk : k ≤ 22) :
    ∃ b : Binary, b.Canonical ∧ 2 ^ 52 ≤ b.mantissa ∧ b.value = (m * 2 ^ k : Nat) := by
  have hlog : m.log2 < 53 := (Nat.log2_lt hm.ne').2 hlt
  have hself := Nat.log2_self_le hm.ne'
  have hnext : m < 2 ^ (m.log2 + 1) := Nat.lt_log2_self
  have hleast : 2 ^ 52 ≤ m * 2 ^ (52 - m.log2) := by
    calc 2 ^ 52 = 2 ^ m.log2 * 2 ^ (52 - m.log2) := by
          rw [← pow_add]
          congr 1
          omega
      _ ≤ m * 2 ^ (52 - m.log2) := by gcongr
  have hmost : m * 2 ^ (52 - m.log2) < 2 ^ 53 := by
    calc m * 2 ^ (52 - m.log2) < 2 ^ (m.log2 + 1) * 2 ^ (52 - m.log2) := by gcongr
      _ = 2 ^ 53 := by
          rw [← pow_add]
          congr 1
          omega
  refine ⟨⟨m * 2 ^ (52 - m.log2), (k : Int) - (52 - m.log2 : Nat)⟩,
    ⟨⟨by dsimp only; omega, hmost, by dsimp only; omega⟩, by dsimp only; omega, .inl hleast⟩,
    hleast, ?_⟩
  unfold value
  push_cast
  rw [zpow_sub₀ two_ne_zero, zpow_natCast, zpow_natCast]
  field_simp

end Binary

end GovernedCatalog.Decimal
