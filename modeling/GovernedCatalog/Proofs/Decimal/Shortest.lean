import Mathlib.Algebra.Order.Field.Power
import Mathlib.Data.List.TakeWhile
import Mathlib.Tactic.Linarith
import Mathlib.Tactic.NormNum
import Mathlib.Tactic.Positivity
import Mathlib.Tactic.Ring
import GovernedCatalog.Decimal.Shortest

/-!
# Seventeen digits suffice

The multiples of a power of ten that is smaller than the distance between the
midpoints around a value cannot all miss the numbers that read back as the
value.  With seventeen digits the power is that small.  So the shortest digits
of a positive value are found, and there is at least one.
-/

namespace GovernedCatalog.Decimal

namespace Ratio

def value (r : Ratio) : ℚ := r.num / r.den

variable {r s : Ratio} {base : Nat}

theorem value_ofNat (n : Nat) : (⟨n, 1⟩ : Ratio).value = n := by simp [value]

theorem den_mulPow_pos (hr : 0 < r.den) (hbase : 0 < base) (e : Int) :
    0 < (r.mulPow base e).den := by
  unfold mulPow
  split
  · exact Nat.mul_pos hr (Nat.pow_pos hbase)
  · exact hr

theorem value_mulPow (r : Ratio) (base : Nat) (e : Int) :
    (r.mulPow base e).value = r.value * (base : ℚ) ^ e := by
  unfold mulPow value
  split
  next hneg =>
    obtain ⟨n, rfl⟩ : ∃ n : Nat, e = -n := ⟨(-e).toNat, by omega⟩
    simp [zpow_neg, ← div_eq_mul_inv, div_div]
  next hpos =>
    obtain ⟨n, rfl⟩ : ∃ n : Nat, e = n := ⟨e.toNat, by omega⟩
    simp [div_eq_mul_inv, mul_right_comm]

theorem lt_iff (hr : 0 < r.den) (hs : 0 < s.den) :
    r.lt s = true ↔ r.value < s.value := by
  have hr' : (0 : ℚ) < r.den := by exact_mod_cast hr
  have hs' : (0 : ℚ) < s.den := by exact_mod_cast hs
  unfold lt value
  rw [decide_eq_true_iff, div_lt_div_iff₀ hr' hs']
  exact_mod_cast Iff.rfl

/-- The value lies between the quotient and the number after it. -/
theorem value_bounds (hr : 0 < r.den) :
    ((r.num / r.den : Nat) : ℚ) ≤ r.value ∧
      r.value < ((r.num / r.den : Nat) : ℚ) + 1 := by
  have hr' : (0 : ℚ) < r.den := by exact_mod_cast hr
  have hdiv : r.num / r.den * r.den ≤ r.num := Nat.div_mul_le_self _ _
  have hmod : r.num < (r.num / r.den + 1) * r.den :=
    Nat.lt_mul_of_div_lt (Nat.lt_succ_self _) hr
  unfold value
  constructor
  · rw [le_div_iff₀ hr']
    exact_mod_cast hdiv
  · rw [div_lt_iff₀ hr']
    exact_mod_cast hmod

theorem value_eq_of_mod_eq_zero (hr : 0 < r.den) (h : r.num % r.den = 0) :
    r.value = ((r.num / r.den : Nat) : ℚ) := by
  have hr' : (r.den : ℚ) ≠ 0 := by exact_mod_cast hr.ne'
  have hmul : r.num / r.den * r.den = r.num :=
    Nat.div_mul_cancel (Nat.dvd_of_mod_eq_zero h)
  unfold value
  rw [div_eq_iff hr']
  exact_mod_cast hmul.symm

end Ratio

namespace Binary

variable {b : Binary}

def value (b : Binary) : ℚ := b.mantissa * 2 ^ b.exponent

/-- A positive value of 64 bits. -/
structure Positive (b : Binary) : Prop where
  mantissa_pos : 0 < b.mantissa
  mantissa_lt : b.mantissa < 2 ^ 53
  exponent_ge : -1074 ≤ b.exponent

theorem ofBits_positive {bits : UInt64}
    (h : (ofBits bits).mantissa ≠ 0) : (ofBits bits).Positive := by
  have hbound : fractionBound = 2 ^ 52 := rfl
  have hfraction : bits.toNat % fractionBound < fractionBound :=
    Nat.mod_lt _ (by rw [hbound]; positivity)
  unfold ofBits at h ⊢
  dsimp only at h ⊢
  split at h
  next hfield =>
    rw [if_pos hfield]
    exact ⟨Nat.pos_of_ne_zero h, by dsimp only; omega, Int.le_refl _⟩
  next hfield =>
    rw [if_neg hfield]
    refine ⟨Nat.pos_of_ne_zero h, by dsimp only; omega, ?_⟩
    dsimp only
    omega

theorem value_toRatio : b.toRatio.value = b.value := by
  rw [toRatio, Ratio.value_mulPow, Ratio.value_ofNat]
  rfl

/-- The midpoint below the value is one or two quarters of the unit away from
it, and one only if the value is a power of two. -/
theorem below_eq (hb : b.Positive) :
    ∃ gap : ℚ, 1 ≤ gap ∧ gap ≤ 2 ∧ 4 * b.mantissa < (gap + 2) * 10 ^ 16 ∧
      b.midpoints.1.value =
        (4 * b.mantissa - gap) * 2 ^ (b.exponent - 2) := by
  have hpos := hb.mantissa_pos
  have hlt : (b.mantissa : ℚ) < 2 ^ 53 := by exact_mod_cast hb.mantissa_lt
  by_cases hpower : b.mantissa = fractionBound ∧ -1074 < b.exponent
  · have hcast : ((4 * b.mantissa - 1 : Nat) : ℚ) = 4 * b.mantissa - 1 := by
      rw [Nat.cast_sub (by omega)]
      push_cast
      ring
    have hmantissa : (b.mantissa : ℚ) = 2 ^ 52 := by
      rw [hpower.1]
      norm_num [fractionBound]
    refine ⟨1, by norm_num, by norm_num, ?_, ?_⟩
    · rw [hmantissa]
      norm_num
    · simp only [midpoints, if_pos hpower, Ratio.value_mulPow,
        Ratio.value_ofNat, hcast, Nat.cast_ofNat]
  · have hcast : ((4 * b.mantissa - 2 : Nat) : ℚ) = 4 * b.mantissa - 2 := by
      rw [Nat.cast_sub (by omega)]
      push_cast
      ring
    refine ⟨2, by norm_num, by norm_num, by linarith, ?_⟩
    simp only [midpoints, if_neg hpower, Ratio.value_mulPow, Ratio.value_ofNat,
      hcast, Nat.cast_ofNat]

/-- The midpoints lie around the value, and what lies between them is more than
the last of seventeen digits. -/
theorem midpoints_bounds (hb : b.Positive) :
    0 < b.midpoints.1.value ∧ b.midpoints.1.value < b.value ∧
      b.value < b.midpoints.2.value ∧
      b.value / 10 ^ 16 < b.midpoints.2.value - b.midpoints.1.value := by
  obtain ⟨gap, hleast, hgreatest, hgap, hlow⟩ := below_eq hb
  have hquarter : (0 : ℚ) < 2 ^ (b.exponent - 2) := by positivity
  have hpos : (1 : ℚ) ≤ b.mantissa := by exact_mod_cast hb.mantissa_pos
  have hvalue : b.value = 4 * b.mantissa * 2 ^ (b.exponent - 2) := by
    rw [value, zpow_sub₀ two_ne_zero]
    ring
  have hhigh : b.midpoints.2.value =
      (4 * b.mantissa + 2) * 2 ^ (b.exponent - 2) := by
    simp [midpoints, Ratio.value_mulPow, Ratio.value_ofNat]
  rw [hlow, hhigh, hvalue]
  refine ⟨mul_pos (by linarith) hquarter, ?_, ?_, ?_⟩
  · exact mul_lt_mul_of_pos_right (by linarith) hquarter
  · exact mul_lt_mul_of_pos_right (by linarith) hquarter
  · rw [← sub_mul, mul_div_right_comm]
    apply mul_lt_mul_of_pos_right _ hquarter
    rw [div_lt_iff₀ (by norm_num)]
    linarith

theorem readsBack_eq (b : Binary) (r : Ratio) :
    b.readsBack r =
      if b.mantissa % 2 = 0 then !r.lt b.midpoints.1 && !b.midpoints.2.lt r
      else b.midpoints.1.lt r && r.lt b.midpoints.2 :=
  rfl

theorem den_midpoints_pos (b : Binary) :
    0 < b.midpoints.1.den ∧ 0 < b.midpoints.2.den :=
  ⟨Ratio.den_mulPow_pos Nat.one_pos Nat.two_pos _,
    Ratio.den_mulPow_pos Nat.one_pos Nat.two_pos _⟩

theorem readsBack_of_between (b : Binary) {r : Ratio} (hr : 0 < r.den)
    (hlow : b.midpoints.1.value < r.value)
    (hhigh : r.value < b.midpoints.2.value) : b.readsBack r = true := by
  obtain ⟨hden, hden'⟩ := b.den_midpoints_pos
  have hbelow := (Ratio.lt_iff hden hr).2 hlow
  have habove := (Ratio.lt_iff hr hden').2 hhigh
  have hnotBelow : r.lt b.midpoints.1 = false := by
    rw [← Bool.not_eq_true, Ratio.lt_iff hr hden]
    exact hlow.not_gt
  have hnotAbove : b.midpoints.2.lt r = false := by
    rw [← Bool.not_eq_true, Ratio.lt_iff hden' hr]
    exact hhigh.not_gt
  simp [readsBack_eq, hbelow, habove, hnotBelow, hnotAbove]

/-- Zero is below the midpoint under a positive value. -/
theorem not_readsBack_of_value_eq_zero (hb : b.Positive) {r : Ratio}
    (hr : 0 < r.den) (hzero : r.value = 0) : b.readsBack r = false := by
  obtain ⟨hden, -⟩ := b.den_midpoints_pos
  have hlow := (midpoints_bounds hb).1
  have hbelow := (Ratio.lt_iff hr hden).2 (hzero.trans_lt hlow)
  have hnotAbove : b.midpoints.1.lt r = false := by
    rw [← Bool.not_eq_true, Ratio.lt_iff hden hr, hzero]
    exact hlow.not_gt
  simp [readsBack_eq, hbelow, hnotAbove]

theorem one_le_value_scaled (hb : b.Positive) : 1 ≤ b.value * 10 ^ (330 : Int) := by
  have hpos : (1 : ℚ) ≤ b.mantissa := by exact_mod_cast hb.mantissa_pos
  have hpower : (2 : ℚ) ^ (-1074 : Int) ≤ 2 ^ b.exponent :=
    zpow_le_zpow_right₀ (by norm_num) hb.exponent_ge
  have hleast : (2 : ℚ) ^ (-1074 : Int) ≤ b.value := by
    unfold value
    have hzero : (0 : ℚ) < 2 ^ b.exponent := by positivity
    nlinarith
  have hpowers : (2 : ℚ) ^ 1074 ≤ 10 ^ 330 := by
    calc (2 : ℚ) ^ 1074 = (2 ^ 179) ^ 6 := by rw [← pow_mul]
      _ ≤ (10 ^ 55) ^ 6 := by
        gcongr
        norm_num
      _ = 10 ^ 330 := by rw [← pow_mul]
  have hscaled : 1 ≤ (2 : ℚ) ^ (-1074 : Int) * 10 ^ (330 : Int) := by
    rw [zpow_neg, ← div_eq_inv_mul, le_div_iff₀ (by positivity), one_mul]
    exact_mod_cast hpowers
  calc (1 : ℚ) ≤ 2 ^ (-1074 : Int) * 10 ^ (330 : Int) := hscaled
    _ ≤ b.value * 10 ^ (330 : Int) := by gcongr

/-- The value has at least as many digits before the point as `point` says. -/
theorem pow_point_le (hb : b.Positive) : (10 : ℚ) ^ (b.point - 1) ≤ b.value := by
  have hden : 0 < (b.toRatio.mulPow 10 330).den :=
    Ratio.den_mulPow_pos (Ratio.den_mulPow_pos Nat.one_pos Nat.two_pos _)
      (by norm_num) _
  obtain ⟨hfloor, hnext⟩ := Ratio.value_bounds hden
  rw [Ratio.value_mulPow, value_toRatio] at hfloor hnext
  unfold point
  dsimp only
  generalize (b.toRatio.mulPow 10 330).num / (b.toRatio.mulPow 10 330).den = n
    at hfloor hnext
  have hpos : 0 < n := by
    have h := (one_le_value_scaled hb).trans_lt hnext
    have h' : (0 : ℚ) < n := by linarith
    exact_mod_cast h'
  obtain ⟨length, hlength⟩ := Nat.exists_eq_succ_of_ne_zero
    (Nat.length_toDigits_pos (b := 10) (n := n)).ne'
  have hdigits : 10 ^ length ≤ n := by
    rcases Nat.eq_zero_or_pos length with rfl | hlong
    · exact hpos
    · rw [← Nat.not_lt, ← Nat.length_toDigits_le_iff (by norm_num) hlong]
      omega
  have hdigits' : (10 : ℚ) ^ length ≤ n := by exact_mod_cast hdigits
  have hexponent : ((Nat.toDigits 10 n).length : Int) - 330 - 1 =
      length - 330 := by
    rw [hlength]
    push_cast
    ring
  rw [hexponent, zpow_sub₀ (by norm_num), zpow_natCast,
    div_le_iff₀ (by positivity)]
  exact hdigits'.trans hfloor

/-- A multiple of a power of ten. -/
theorem multiple_spec (d : Nat) (scale : Int) :
    0 < ((⟨d, 1⟩ : Ratio).mulPow 10 scale).den ∧
      ((⟨d, 1⟩ : Ratio).mulPow 10 scale).value = d * 10 ^ scale := by
  constructor
  · exact Ratio.den_mulPow_pos Nat.one_pos (by norm_num) _
  · simp [Ratio.value_mulPow, Ratio.value_ofNat]

theorem readsBack_of_nearest? {tie : Tie} {point : Int} {count d : Nat}
    (h : b.nearest? tie point count = some d) :
    b.readsBack ((⟨d, 1⟩ : Ratio).mulPow 10 (point - count)) = true := by
  unfold nearest? at h
  dsimp only at h
  split at h
  next hlow _ =>
    cases h
    exact hlow
  next _ hnext =>
    cases h
    exact (Bool.and_eq_true_iff.1 hnext).2
  next => cases h
  next hlow hnext =>
    have hnext' := (Bool.and_eq_true_iff.1 hnext).2
    split at h
    · cases h
      exact hlow
    split at h
    · cases h
      exact hnext'
    split at h
    · cases h
      exact hlow
    · cases h
      exact hnext'

/-- The value lies between its neighbours among the multiples of a power of
ten. -/
theorem neighbours_spec (b : Binary) (scale : Int) :
    let r := b.toRatio.mulPow 10 (-scale)
    ((r.num / r.den : Nat) : ℚ) * 10 ^ scale ≤ b.value ∧
      b.value < (((r.num / r.den : Nat) : ℚ) + 1) * 10 ^ scale ∧
      (r.num % r.den = 0 →
        ((r.num / r.den : Nat) : ℚ) * 10 ^ scale = b.value) := by
  intro r
  have hpower : (0 : ℚ) < 10 ^ scale := by positivity
  have hden : 0 < r.den :=
    Ratio.den_mulPow_pos (Ratio.den_mulPow_pos Nat.one_pos Nat.two_pos _)
      (by norm_num) _
  have hvalue : r.value * 10 ^ scale = b.value := by
    rw [Ratio.value_mulPow, value_toRatio, Nat.cast_ofNat, zpow_neg,
      inv_mul_cancel_right₀ hpower.ne']
  obtain ⟨hfloor, hnext⟩ := Ratio.value_bounds hden
  rw [← hvalue]
  refine ⟨?_, ?_, fun hrest => ?_⟩
  · exact mul_le_mul_of_nonneg_right hfloor hpower.le
  · exact mul_lt_mul_of_pos_right hnext hpower
  · rw [Ratio.value_eq_of_mod_eq_zero hden hrest]

/-- One of the neighbours reads back if the power of ten is below the distance
of the midpoints. -/
theorem nearest?_isSome (hb : b.Positive) (tie : Tie) {point : Int} {count : Nat}
    (hsmall : (10 : ℚ) ^ (point - count) <
      b.midpoints.2.value - b.midpoints.1.value) :
    (b.nearest? tie point count).isSome := by
  obtain ⟨-, hbelow, habove, -⟩ := midpoints_bounds hb
  obtain ⟨hfloor, hnext, hexact⟩ := b.neighbours_spec (point - count)
  have hfits (d : Nat) (hlow : b.midpoints.1.value < d * 10 ^ (point - count))
      (hhigh : d * 10 ^ (point - count) < b.midpoints.2.value) :
      b.readsBack ((⟨d, 1⟩ : Ratio).mulPow 10 (point - count)) = true := by
    obtain ⟨hden, hvalue⟩ := multiple_spec d (point - count)
    exact b.readsBack_of_between hden (hvalue ▸ hlow) (hvalue ▸ hhigh)
  unfold nearest?
  dsimp only at hfloor hnext hexact ⊢
  generalize b.toRatio.mulPow 10 (-(point - count)) = r at hfloor hnext hexact ⊢
  have hone : b.readsBack ((⟨r.num / r.den, 1⟩ : Ratio).mulPow 10 (point - count)) =
        true ∨
      (r.num % r.den != 0 &&
        b.readsBack ((⟨r.num / r.den + 1, 1⟩ : Ratio).mulPow 10 (point - count))) =
          true := by
    by_cases hlow : b.midpoints.1.value <
        ((r.num / r.den : Nat) : ℚ) * 10 ^ (point - count)
    · exact .inl (hfits _ hlow (hfloor.trans_lt habove))
    · have hrest : r.num % r.den ≠ 0 := by
        intro hrest
        exact hlow (by rwa [hexact hrest])
      refine .inr (Bool.and_eq_true_iff.2 ⟨by simpa using hrest, hfits _ ?_ ?_⟩)
      · push_cast
        linarith
      · push_cast
        linarith
  split
  · rfl
  · rfl
  · simp_all
  split
  · rfl
  split
  · rfl
  split
  · rfl
  · rfl

/-- What is found reads back, so it is not zero. -/
theorem ne_zero_of_nearest? (hb : b.Positive) {tie : Tie} {point : Int}
    {count d : Nat} (h : b.nearest? tie point count = some d) : d ≠ 0 := by
  rintro rfl
  obtain ⟨hden, hvalue⟩ := multiple_spec 0 (point - count)
  have hzero := not_readsBack_of_value_eq_zero hb hden (by simp [hvalue])
  rw [readsBack_of_nearest? h] at hzero
  cases hzero

/-- The digits of a number without the zeros at their end. -/
def significant (d : Nat) : List Char :=
  ((Nat.toDigits 10 d).reverse.dropWhile (· = '0')).reverse

theorem significant_spec {d : Nat} (hd : d ≠ 0) :
    significant d ≠ [] ∧ ∀ c ∈ significant d, c.isDigit := by
  constructor
  · intro h
    have hzeros : ∀ c ∈ Nat.toDigits 10 d, c = '0' := by
      simpa [significant, List.dropWhile_eq_nil_iff] using h
    have hdigits := Nat.ofDigitChars_ten_toDigits (n := d)
    rw [List.eq_replicate_of_mem hzeros, Nat.ofDigitChars_replicate_zero,
      Nat.mul_zero] at hdigits
    exact hd hdigits.symm
  · intro c hc
    have hmem := (List.dropWhile_sublist _).mem (List.mem_reverse.1 hc)
    exact Nat.isDigit_of_mem_toDigits (by norm_num) (by norm_num)
      (List.mem_reverse.1 hmem)

/-- A search finds the digits of a number that reads back if its last count has
one. -/
theorem search_eq {tie : Tie} {point : Int} {remaining count : Nat}
    (h : (b.nearest? tie point (count + remaining)).isSome) :
    ∃ places d, b.nearest? tie point places = some d ∧
      b.search tie point (remaining + 1) count =
        ⟨significant d, point + ((Nat.toDigits 10 d).length - places)⟩ := by
  induction remaining generalizing count with
  | zero =>
      obtain ⟨d, hd⟩ := Option.isSome_iff_exists.1 h
      rw [Nat.add_zero] at hd
      refine ⟨count, d, hd, ?_⟩
      rw [search, hd]
      rfl
  | succ remaining ih =>
      rw [search]
      cases hd : b.nearest? tie point count with
      | none =>
          apply ih
          rwa [Nat.add_right_comm]
      | some d => exact ⟨count, d, hd, rfl⟩

theorem digitsOf_eq (hb : b.Positive) (tie : Tie) :
    ∃ places d, b.nearest? tie b.point places = some d ∧
      b.digitsOf tie =
        ⟨significant d, b.point + ((Nat.toDigits 10 d).length - places)⟩ := by
  obtain ⟨-, -, -, hgap⟩ := midpoints_bounds hb
  apply search_eq
  apply nearest?_isSome hb tie
  calc (10 : ℚ) ^ (b.point - ((1 + 16 : Nat) : Int))
      = 10 ^ (b.point - 1) / 10 ^ 16 := by
        have hpoint : b.point - ((1 + 16 : Nat) : Int) = b.point - 1 - 16 := by
          push_cast
          ring
        rw [hpoint, zpow_sub₀ (by norm_num)]
        rfl
    _ ≤ b.value / 10 ^ 16 := by
        gcongr
        exact pow_point_le hb
    _ < _ := hgap

/-- The shortest digits of a positive value are digits, and there is one. -/
theorem digitsOf_spec (hb : b.Positive) (tie : Tie) :
    (b.digitsOf tie).digits ≠ [] ∧
      ∀ c ∈ (b.digitsOf tie).digits, c.isDigit := by
  obtain ⟨places, d, hd, hdigits⟩ := digitsOf_eq hb tie
  rw [hdigits]
  exact significant_spec (ne_zero_of_nearest? hb hd)

end Binary

end GovernedCatalog.Decimal
