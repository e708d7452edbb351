import GovernedCatalog.Decimal.Reading
import GovernedCatalog.Proofs.Decimal.Shortest
import Mathlib.Data.List.TakeWhile

/-!
# Texts of numbers

Whole numbers of 64 bits are read as what they were written for.  No number is
read from a text with a bracket in it.  Floating-point numbers are laid out with
digits before a point and behind it, or with an exponent.  Only texts in such a
notation are read as finite numbers.
-/

namespace GovernedCatalog.Decimal

/-! ## Digits -/

theorem natOfDigits_toDigits (n : Nat) : natOfDigits (Nat.toDigits 10 n) = n :=
  Nat.ofDigitChars_ten_toDigits

theorem natOfDigits_append (cs ds : List Char) :
    natOfDigits (cs ++ ds) = 10 ^ ds.length * natOfDigits cs + natOfDigits ds :=
  (Nat.ofDigitChars_append 0).trans Nat.ofDigitChars_eq_ofDigitChars_zero

theorem natOfDigits_cons (c : Char) (cs : List Char) :
    natOfDigits (c :: cs) = 10 ^ cs.length * digitValue c + natOfDigits cs := by
  have hone : natOfDigits [c] = digitValue c := by simp [natOfDigits]
  rw [← hone]
  exact natOfDigits_append [c] cs

theorem natOfDigits_zeros (n : Nat) : natOfDigits (List.replicate n '0') = 0 :=
  Nat.ofDigitChars_replicate_zero

theorem natOfDigits_dropWhile (cs : List Char) :
    natOfDigits (cs.dropWhile (· = '0')) = natOfDigits cs := by
  induction cs with
  | nil => rfl
  | cons c cs ih =>
    by_cases hc : c = '0'
    · rw [List.dropWhile_cons_of_pos (by simpa using hc), ih, natOfDigits_cons, hc]
      exact (Nat.zero_add _).symm
    · rw [List.dropWhile_cons_of_neg (by simpa using hc)]

section Digits

variable {c : Char} {cs : List Char}

theorem isDigit_of_mem_toDigits {n : Nat} (h : c ∈ Nat.toDigits 10 n) : c.isDigit :=
  Nat.isDigit_of_mem_toDigits (by norm_num) (by norm_num) h

theorem isDigit_of_mem_replicate {n : Nat} (hc : c ∈ List.replicate n '0') :
    c.isDigit := by
  rw [List.eq_of_mem_replicate hc]
  rfl

theorem toLower_of_isDigit (hc : c.isDigit) : c.toLower = c := by
  unfold Char.toLower
  simp [Char.isDigit, UInt32.le_iff_toNat_le] at hc ⊢
  omega

theorem digitValue_lt (hc : c.isDigit) : digitValue c < 10 := by
  have h := Char.isDigit_iff_toNat.1 hc
  change _ ∧ c.toNat ≤ 57 at h
  change c.toNat - 48 < 10
  omega

theorem digitValue_pos (hc : c.isDigit) (hne : c ≠ '0') : 0 < digitValue c := by
  have h := Char.isDigit_iff_toNat.1 hc
  have hne' : c.toNat ≠ 48 := fun heq => hne (Char.toNat_inj.1 heq)
  change 48 ≤ c.toNat ∧ _ at h
  change 0 < c.toNat - 48
  omega

theorem natOfDigits_lt (h : ∀ c ∈ cs, c.isDigit) : natOfDigits cs < 10 ^ cs.length := by
  induction cs with
  | nil => exact Nat.one_pos
  | cons c cs ih =>
    obtain ⟨hc, hcs⟩ := List.forall_mem_cons.1 h
    have hdigit := digitValue_lt hc
    have hrest := ih hcs
    rw [natOfDigits_cons, List.length_cons, pow_succ]
    nlinarith

/-- A number that does not begin with a zero has no fewer digits than it needs. -/
theorem le_natOfDigits (hc : c.isDigit) (hne : c ≠ '0') :
    10 ^ (c :: cs).length ≤ 10 * natOfDigits (c :: cs) := by
  have hdigit := digitValue_pos hc hne
  rw [natOfDigits_cons, List.length_cons, pow_succ]
  have hpower : 0 < 10 ^ cs.length := Nat.pow_pos (by norm_num)
  nlinarith

/-- Digits end where something else begins. -/
theorem takeWhile_dropWhile_digits {rest : List Char} (hcs : ∀ c ∈ cs, c.isDigit)
    (hrest : ∀ c ∈ rest.head?, c.isDigit = false) :
    (cs ++ rest).takeWhile Char.isDigit = cs ∧
      (cs ++ rest).dropWhile Char.isDigit = rest := by
  rw [List.takeWhile_append_of_pos hcs, List.dropWhile_append_of_pos hcs]
  cases rest with
  | nil => simp
  | cons c rest =>
    have hc : c.isDigit = false := hrest c rfl
    simp [hc]

end Digits

/-! ## Signs -/

def sign (negative : Bool) : List Char := if negative then ['-'] else []

theorem takeSign_of_isDigit {c : Char} (hc : c.isDigit) (cs : List Char) :
    takeSign (c :: cs) = (false, c :: cs) := by
  unfold takeSign
  split
  · next h =>
    cases h
    cases hc
  · next h =>
    cases h
    cases hc
  · rfl

theorem takeSign_sign (negative : Bool) {c : Char} (hc : c.isDigit)
    (cs : List Char) : takeSign (sign negative ++ c :: cs) = (negative, c :: cs) := by
  cases negative with
  | true => rfl
  | false => exact takeSign_of_isDigit hc cs

/-! ## Whole numbers -/

theorem toList_int (n : Int) :
    (toString n).toList = sign (n < 0) ++ Nat.toDigits 10 n.natAbs := by
  cases n with
  | ofNat m => exact String.toList_ofList
  | negSucc m =>
    change ("-" ++ String.ofList (Nat.toDigits 10 (m + 1))).toList = _
    simp [sign, Int.negSucc_lt_zero]

theorem toString_int_begins (n : Int) :
    ∃ c rest, (toString n).toList = c :: rest ∧ (c.isDigit ∨ c = '-') := by
  obtain ⟨c, cs, hcs⟩ :=
    List.exists_cons_of_ne_nil (Nat.toDigits_ne_nil (n := n.natAbs) (b := 10))
  have hc : c.isDigit := isDigit_of_mem_toDigits (hcs ▸ List.mem_cons_self)
  rw [toList_int, hcs]
  unfold sign
  split
  · exact ⟨'-', c :: cs, rfl, .inr rfl⟩
  · exact ⟨c, cs, rfl, .inl hc⟩

theorem mem_toString_int {n : Int} {c : Char} (h : c ∈ (toString n).toList) :
    c.isDigit ∨ c = '-' := by
  rw [toList_int] at h
  rcases List.mem_append.1 h with h | h
  · unfold sign at h
    split at h
    · exact .inr (List.mem_singleton.1 h)
    · cases h
  · exact .inl (isDigit_of_mem_toDigits h)

theorem readInt?_toString {n : Int} (hn : fitsInt64 n = true) :
    readInt? (toString n).toList = some n := by
  obtain ⟨c, cs, hcs⟩ :=
    List.exists_cons_of_ne_nil (Nat.toDigits_ne_nil (n := n.natAbs) (b := 10))
  have hc : c.isDigit := isDigit_of_mem_toDigits (hcs ▸ List.mem_cons_self)
  have htake : takeSign (toString n).toList =
      ((n < 0 : Bool), Nat.toDigits 10 n.natAbs) := by
    rw [toList_int, hcs]
    exact takeSign_sign _ hc cs
  have hall := List.all_eq_true.2 fun c => @isDigit_of_mem_toDigits c n.natAbs
  have hvalue : (if n < 0 then -|n| else |n|) = n := by
    split
    next h => rw [abs_of_neg h, neg_neg]
    next h => rw [abs_of_nonneg (Int.not_lt.1 h)]
  unfold readInt?
  rw [htake]
  simp [hall, natOfDigits_toDigits, hvalue, hn, Nat.toDigits_ne_nil]

/-!
## The notation of numbers

Every text that is read as a whole or as a finite number has a sign, digits with a
point among them, and an exponent, of which only a digit has to be there.
-/

def IsDigits (cs : List Char) : Prop := cs ≠ [] ∧ ∀ c ∈ cs, c.isDigit

/-- A sign, or nothing. -/
def IsSign (cs : List Char) : Prop := cs = [] ∨ cs = ['-'] ∨ cs = ['+']

/-- An exponent, perhaps with a sign, or nothing. -/
inductive IsExponent : List Char → Prop
  | none : IsExponent []
  | mark {c : Char} (hc : c = 'e' ∨ c = 'E') {sign digits : List Char} (hsign : IsSign sign)
      (hdigits : IsDigits digits) : IsExponent (c :: (sign ++ digits))

/-- Digits with a point among them or behind them, or nothing. -/
inductive IsMantissa : List Char → Prop
  | whole {digits : List Char} (hdigits : IsDigits digits) : IsMantissa digits
  | point {whole fraction : List Char} (hwhole : ∀ d ∈ whole, d.isDigit)
      (hfraction : ∀ d ∈ fraction, d.isDigit) (hne : whole ≠ [] ∨ fraction ≠ []) :
      IsMantissa (whole ++ '.' :: fraction)

/-- A number with an optional sign and exponent. -/
inductive SignedNumber : List Char → Prop
  | mk {sign mantissa exponent : List Char} (hsign : IsSign sign)
      (hmantissa : IsMantissa mantissa) (hexponent : IsExponent exponent) :
      SignedNumber (sign ++ (mantissa ++ exponent))

section Characters

variable {cs : List Char} {c : Char}

/-- Numbers are read from these characters. -/
def IsNotation (c : Char) : Prop := c.isDigit ∨ c ∈ ['-', '+', '.', 'e', 'E']

instance (c : Char) : Decidable (IsNotation c) := inferInstanceAs (Decidable (_ ∨ _))

theorem IsSign.isNotation (h : IsSign cs) (hc : c ∈ cs) : IsNotation c := by
  rcases h with rfl | rfl | rfl
  · cases hc
  · exact .inr (by simp_all)
  · exact .inr (by simp_all)

theorem IsExponent.isNotation (h : IsExponent cs) (hc : c ∈ cs) : IsNotation c := by
  cases h with
  | none => cases hc
  | @mark e he sign digits hsign hdigits =>
    rcases List.mem_cons.1 hc with rfl | hc
    · exact .inr (by rcases he with rfl | rfl <;> decide)
    · exact (List.mem_append.1 hc).elim hsign.isNotation fun hc => .inl (hdigits.2 c hc)

theorem IsMantissa.isNotation (h : IsMantissa cs) (hc : c ∈ cs) : IsNotation c := by
  cases h with
  | whole hdigits => exact .inl (hdigits.2 c hc)
  | point hwhole hfraction =>
    rcases List.mem_append.1 hc with hc | hc
    · exact .inl (hwhole c hc)
    rcases List.mem_cons.1 hc with rfl | hc
    · exact .inr (by decide)
    · exact .inl (hfraction c hc)

theorem SignedNumber.isNotation (h : SignedNumber cs) (hc : c ∈ cs) : IsNotation c := by
  cases h with
  | mk hsign hmantissa hexponent =>
    rcases List.mem_append.1 hc with hc | hc
    · exact hsign.isNotation hc
    · exact (List.mem_append.1 hc).elim hmantissa.isNotation hexponent.isNotation

end Characters

/-! ### What is read -/

section Reading

variable {cs : List Char}

theorem takeSign_sound (cs : List Char) : ∃ sign, IsSign sign ∧ cs = sign ++ (takeSign cs).2 := by
  unfold takeSign
  split
  · exact ⟨['-'], .inr (.inl rfl), rfl⟩
  · exact ⟨['+'], .inr (.inr rfl), rfl⟩
  · exact ⟨[], .inl rfl, rfl⟩

theorem digits_of_guard {digits : List Char}
    (h : ¬(digits.isEmpty || !digits.all Char.isDigit) = true) :
    IsDigits digits := by
  simp only [Bool.or_eq_true, not_or, List.isEmpty_iff, Bool.not_eq_true', Bool.not_eq_false,
    List.all_eq_true] at h
  exact h

theorem readInt?_sound {n : Int} (h : readInt? cs = some n) : SignedNumber cs := by
  obtain ⟨sign, hsign, hcs⟩ := takeSign_sound cs
  unfold readInt? at h
  generalize takeSign cs = signed at h hcs
  obtain ⟨hdigits, -⟩ := Option.ite_none_left_eq_some.1 h
  have hnumber := SignedNumber.mk hsign (.whole (digits_of_guard hdigits)) .none
  rwa [List.append_nil, ← hcs] at hnumber

theorem readExponent?_sound {e : Int} (h : readExponent? cs = some e) : IsExponent cs := by
  cases cs with
  | nil => exact .none
  | cons c rest =>
    rw [readExponent?] at h
    obtain ⟨hc, h⟩ := Option.ite_none_right_eq_some.1 h
    obtain ⟨sign, hsign, hrest⟩ := takeSign_sound rest
    generalize takeSign rest = signed at h hrest
    obtain ⟨hdigits, -⟩ := Option.ite_none_left_eq_some.1 h
    rw [hrest]
    exact .mark hc hsign (digits_of_guard hdigits)

theorem isDigit_of_mem_takeWhile (cs : List Char) :
    ∀ c ∈ cs.takeWhile Char.isDigit, c.isDigit := fun _ => List.mem_takeWhile_imp

/-- A number is read from its digits, or from a name if it is not finite. -/
theorem readUnsigned?_sound {x : Float} (h : readUnsigned? cs = some x) :
    (cs.map Char.toLower ∈ ["inf".toList, "infinity".toList, "nan".toList] ∧
      (x = Float.ofScientific 1 false 400 ∨ x = 0.0 / 0.0)) ∨
      ∃ mantissa exponent, IsMantissa mantissa ∧ IsExponent exponent ∧
        cs = mantissa ++ exponent := by
  unfold readUnsigned? at h
  dsimp only at h
  simp only [← String.toList_inj, String.toList_ofList] at h
  split at h
  · next hname => exact .inl ⟨by simp only [List.mem_cons]; tauto, .inl (Option.some.inj h).symm⟩
  split at h
  · next hname => exact .inl ⟨by simp only [List.mem_cons]; tauto, .inr (Option.some.inj h).symm⟩
  right
  have hsplit := List.takeWhile_append_dropWhile (p := Char.isDigit) (l := cs)
  have hwhole := isDigit_of_mem_takeWhile cs
  generalize cs.takeWhile Char.isDigit = whole at h hsplit hwhole
  generalize cs.dropWhile Char.isDigit = later at h hsplit
  rw [← hsplit]
  split at h
  · next rest =>
    obtain ⟨hdigits, h⟩ := Option.ite_none_left_eq_some.1 h
    obtain ⟨e, he, -⟩ := Option.map_eq_some_iff.1 h
    have hne : whole ≠ [] ∨ rest.takeWhile Char.isDigit ≠ [] := by
      simpa only [Bool.and_eq_true, List.isEmpty_iff, not_and_or] using hdigits
    refine ⟨_, _, .point hwhole (isDigit_of_mem_takeWhile rest) hne, readExponent?_sound he, ?_⟩
    rw [List.append_assoc, List.cons_append, List.takeWhile_append_dropWhile]
  · obtain ⟨hdigits, h⟩ := Option.ite_none_left_eq_some.1 h
    obtain ⟨e, he, -⟩ := Option.map_eq_some_iff.1 h
    have hne : whole ≠ [] := by simpa using hdigits
    exact ⟨_, _, .whole ⟨hne, hwhole⟩, readExponent?_sound he, rfl⟩

theorem not_isFinite_of_named {x : Float} (hx : x = Float.ofScientific 1 false 400 ∨ x = 0.0 / 0.0)
    (negative : Bool) : (if negative then -x else x).isFinite = false := by
  rcases hx with rfl | rfl <;> cases negative <;> decide +kernel

theorem readFloat?_sound {x : Float} (h : readFloat? cs = some x) (hx : x.isFinite = true) :
    SignedNumber cs := by
  obtain ⟨sign, hsign, hcs⟩ := takeSign_sound cs
  unfold readFloat? at h
  generalize takeSign cs = signed at h hcs
  obtain ⟨y, hy, rfl⟩ := Option.map_eq_some_iff.1 h
  rcases readUnsigned?_sound hy with ⟨-, hnamed⟩ | ⟨mantissa, exponent, hmantissa, hexponent, hrest⟩
  · rw [not_isFinite_of_named hnamed] at hx
    cases hx
  · rw [hcs, hrest]
    exact .mk hsign hmantissa hexponent

/-! ### Brackets -/

theorem readInt?_bracket (h : '[' ∈ cs) : readInt? cs = none := by
  by_contra hread
  obtain ⟨n, hn⟩ := Option.ne_none_iff_exists'.1 hread
  exact absurd ((readInt?_sound hn).isNotation h) (by decide)

theorem readUnsigned?_bracket (h : '[' ∈ cs) : readUnsigned? cs = none := by
  by_contra hread
  obtain ⟨x, hx⟩ := Option.ne_none_iff_exists'.1 hread
  rcases readUnsigned?_sound hx with ⟨hname, -⟩ | ⟨_, _, hmantissa, hexponent, rfl⟩
  · have hmem : '[' ∈ cs.map Char.toLower := List.mem_map.2 ⟨'[', h, by decide⟩
    have hnames : ∀ name ∈ ["inf".toList, "infinity".toList, "nan".toList], '[' ∉ name := by
      decide
    exact hnames _ hname hmem
  · exact absurd ((List.mem_append.1 h).elim hmantissa.isNotation hexponent.isNotation) (by decide)

theorem readFloat?_bracket (h : '[' ∈ cs) : readFloat? cs = none := by
  obtain ⟨sign, hsign, hcs⟩ := takeSign_sound cs
  have hrest : '[' ∈ (takeSign cs).2 := by
    rw [hcs] at h
    exact (List.mem_append.1 h).resolve_left fun h => absurd (hsign.isNotation h) (by decide)
  unfold readFloat?
  simp [readUnsigned?_bracket hrest]

end Reading

end GovernedCatalog.Decimal

/-! ## Layouts

A number has digits before a point and behind it, or an exponent. -/

namespace GovernedCatalog.Decimal

/-- The number that the digits stand for. -/
def Digits.value (d : Digits) : ℚ :=
  natOfDigits d.digits * 10 ^ (d.point - d.digits.length)

namespace Layout

variable {layout : Layout} {d : Digits} {c : Char}

/-- Zeros stand between the digits and the point if these are apart. -/
theorem plain_eq (hdigits : ∀ c ∈ d.digits, c.isDigit) :
    ∃ whole fraction, plain d = whole ++ '.' :: fraction ∧ whole ≠ [] ∧
      (∀ c ∈ whole, c.isDigit) ∧ (∀ c ∈ fraction, c.isDigit) ∧
      natOfDigits (whole ++ fraction) * (10 : ℚ) ^ (-(fraction.length : Int)) = d.value := by
  have hzero : natOfDigits ['0'] = 0 := rfl
  unfold plain
  split
  next hsmall =>
    refine ⟨['0'], _, rfl, List.cons_ne_nil '0' [], by simp, fun c hc => ?_, ?_⟩
    · exact (List.mem_append.1 hc).elim isDigit_of_mem_replicate (hdigits c)
    · have hexponent : -((((-d.point).toNat + d.digits.length : Nat)) : Int) =
          d.point - d.digits.length := by omega
      rw [Digits.value, natOfDigits_append, natOfDigits_append, natOfDigits_zeros, hzero,
        List.length_append, List.length_replicate, hexponent]
      simp
  next hlarge =>
  obtain ⟨n, hn⟩ : ∃ n : Nat, d.point = n := ⟨d.point.toNat, by omega⟩
  dsimp only
  rw [hn, Int.toNat_natCast]
  split
  next hlength =>
    refine ⟨_, ['0'], rfl, fun hnil => ?_, fun c hc => ?_, by simp, ?_⟩
    · have hzeros := congrArg List.length hnil
      rw [List.length_append, List.length_replicate, List.length_nil] at hzeros
      omega
    · exact (List.mem_append.1 hc).elim (hdigits c) isDigit_of_mem_replicate
    · have hexponent : d.point - d.digits.length = (n - d.digits.length : Nat) := by omega
      rw [Digits.value, natOfDigits_append, natOfDigits_append, natOfDigits_zeros, hzero,
        List.length_replicate, hexponent, zpow_natCast]
      simp
      ring
  next hlength =>
    refine ⟨d.digits.take n, d.digits.drop n, rfl, fun hnil => ?_, fun c hc => ?_,
      fun c hc => ?_, ?_⟩
    · have htake := congrArg List.length hnil
      rw [List.length_take, List.length_nil] at htake
      omega
    · exact hdigits c (List.mem_of_mem_take hc)
    · exact hdigits c (List.mem_of_mem_drop hc)
    · have hexponent : -((d.digits.length - n : Nat) : Int) = d.point - d.digits.length := by
        omega
      rw [Digits.value, List.take_append_drop, List.length_drop, hexponent]

/-! ### Characters

Floating-point numbers are written with digits, a few letters and marks, and the
signs of their layout. -/

/-- The character is one that the layout writes. -/
def Uses (layout : Layout) (c : Char) : Prop :=
  c.isDigit ∨ c ∈ layout.exponentSign.toList ∨
    c ∈ ['-', '.', 'e', 'N', 'a', 'i', 'n', 'f']

theorem uses_of_mem_plain (hdigits : ∀ c ∈ d.digits, c.isDigit)
    (hc : c ∈ plain d) : layout.Uses c := by
  obtain ⟨whole, fraction, hplain, -, hwhole, hfraction, -⟩ := plain_eq hdigits
  rw [hplain] at hc
  rcases List.mem_append.1 hc with hc | hc
  · exact .inl (hwhole c hc)
  rcases List.mem_cons.1 hc with rfl | hc
  · exact .inr (.inr (by decide))
  · exact .inl (hfraction c hc)

theorem uses_of_mem_scientific (hdigits : ∀ c ∈ d.digits, c.isDigit)
    (hc : c ∈ layout.scientific d) : layout.Uses c := by
  have hnumber {n : Nat} (h : c ∈ Nat.toDigits 10 n) : layout.Uses c :=
    .inl (isDigit_of_mem_toDigits h)
  unfold scientific at hc
  dsimp only at hc
  generalize hmark : (if d.point - 1 < 0 then
      '-' :: Nat.toDigits 10 (-(d.point - 1)).toNat
    else layout.exponentSign.toList ++
      Nat.toDigits 10 (d.point - 1).toNat) = mark at hc
  have huses : c ∈ mark → layout.Uses c := by
    rw [← hmark]
    split
    · intro h
      rcases List.mem_cons.1 h with rfl | h
      · exact .inr (.inr (by decide))
      · exact hnumber h
    · intro h
      exact (List.mem_append.1 h).elim (.inr ∘ .inl) hnumber
  have hmem : c ∈ d.digits ∨ c = '.' ∨ c = 'e' ∨ c ∈ mark := by
    cases hd : d.digits with
    | nil => simp [hd] at hc
    | cons first rest =>
      rw [hd] at hc
      cases rest with
      | nil =>
        simp only [List.mem_cons] at hc ⊢
        tauto
      | cons second rest =>
        simp only [List.mem_cons, List.mem_append] at hc ⊢
        tauto
  rcases hmem with hmem | rfl | rfl | hmem
  · exact .inl (hdigits c hmem)
  · exact .inr (.inr (by decide))
  · exact .inr (.inr (by decide))
  · exact huses hmem

theorem uses_of_mem_write {x : Float} (hc : c ∈ (layout.write x).toList) :
    layout.Uses c := by
  have hword {word : List Char} (h : c ∈ word)
      (hword : word ⊆ ['-', '.', 'e', 'N', 'a', 'i', 'n', 'f']) : layout.Uses c :=
    .inr (.inr (hword h))
  have hsigned {negative : Prop} [Decidable negative] {body : String}
      (h : c ∈ ((if negative then "-" else "") ++ body).toList)
      (hbody : c ∈ body.toList → layout.Uses c) : layout.Uses c := by
    rw [String.toList_append] at h
    rcases List.mem_append.1 h with h | h
    · split at h
      · exact hword h (by decide)
      · cases h
    · exact hbody h
  unfold write at hc
  dsimp only at hc
  split at hc
  · exact hword hc (by decide)
  split at hc
  · exact hsigned hc fun h => hword h (by decide)
  split at hc
  · refine hsigned hc fun h => ?_
    have hmem : c = '0' ∨ c = '.' ∨ c = '0' := by simpa using h
    rcases hmem with rfl | rfl | rfl
    · exact .inl rfl
    · exact .inr (.inr (by decide))
    · exact .inl rfl
  next hmantissa =>
  obtain ⟨-, hdigits⟩ :=
    Binary.digitsOf_spec (Binary.ofBits_positive hmantissa) layout.tie
  refine hsigned hc fun h => ?_
  rw [String.toList_ofList] at h
  split at h
  · exact uses_of_mem_plain hdigits h
  · exact uses_of_mem_scientific hdigits h

/-! ## How a number begins -/

theorem isFinite_iff {x : Float} :
    x.isFinite = true ↔ x.isNaN = false ∧ x.isInf = false := by
  unfold Float.isFinite Float.isNaN Float.isInf
  unfold Float.Model.isFinite Float.Model.isNaN Float.Model.isInf
  cases x.toModel.unpack with
  | notANumber => exact iff_of_false Bool.false_ne_true fun h => nomatch h.1
  | infinity => exact iff_of_false Bool.false_ne_true fun h => nomatch h.2
  | zero => exact iff_of_true rfl ⟨rfl, rfl⟩
  | finite => exact iff_of_true rfl ⟨rfl, rfl⟩

theorem plain_begins (hdigits : ∀ c ∈ d.digits, c.isDigit) :
    ∃ c rest, plain d = c :: rest ∧ c.isDigit := by
  obtain ⟨whole, fraction, hplain, hne, hwhole, -⟩ := plain_eq hdigits
  obtain ⟨c, whole, rfl⟩ := List.exists_cons_of_ne_nil hne
  exact ⟨c, _, hplain, hwhole c List.mem_cons_self⟩

theorem scientific_begins (layout : Layout) (hne : d.digits ≠ [])
    (hdigits : ∀ c ∈ d.digits, c.isDigit) :
    ∃ c rest, layout.scientific d = c :: rest ∧ c.isDigit := by
  obtain ⟨first, rest, hd⟩ := List.exists_cons_of_ne_nil hne
  have hfirst : first.isDigit := hdigits first (hd ▸ List.mem_cons_self)
  unfold scientific
  rw [hd]
  cases rest with
  | nil => exact ⟨first, _, rfl, hfirst⟩
  | cons second rest => exact ⟨first, _, rfl, hfirst⟩

/-- The text of a finite number without its sign. -/
def body (layout : Layout) (b : Binary) : List Char :=
  if b.mantissa = 0 then ['0', '.', '0']
  else
    let d := b.digitsOf layout.tie
    if layout.leastPoint ≤ d.point ∧ d.point ≤ layout.greatestPoint then plain d
    else layout.scientific d

theorem toList_write (layout : Layout) {x : Float} (hx : x.isFinite = true) :
    (layout.write x).toList =
      sign (x.toBits >>> 63 == 1) ++ layout.body (Binary.ofBits x.toBits) := by
  obtain ⟨hnan, hinf⟩ := isFinite_iff.1 hx
  have hsigned (negative : Bool) (s : String) :
      ((if negative then "-" else "") ++ s).toList = sign negative ++ s.toList := by
    cases negative <;> simp [sign]
  unfold write body
  dsimp only
  rw [hnan, hinf, if_neg (by decide), if_neg (by decide)]
  split
  · exact hsigned _ _
  · rw [hsigned, String.toList_ofList]

theorem body_begins (layout : Layout) {b : Binary} (hb : b.mantissa ≠ 0 → b.Positive) :
    ∃ c rest, layout.body b = c :: rest ∧ c.isDigit := by
  unfold body
  split
  · exact ⟨'0', ['.', '0'], rfl, rfl⟩
  next hmantissa =>
  obtain ⟨hne, hdigits⟩ := Binary.digitsOf_spec (hb hmantissa) layout.tie
  dsimp only
  split
  · exact plain_begins hdigits
  · exact scientific_begins layout hne hdigits

/-- A finite number begins with a digit or a sign. -/
theorem write_begins (layout : Layout) {x : Float} (hx : x.isFinite = true) :
    ∃ c rest, (layout.write x).toList = c :: rest ∧ (c.isDigit ∨ c = '-') := by
  obtain ⟨c, rest, hbody, hc⟩ := body_begins layout Binary.ofBits_positive
  rw [toList_write layout hx, hbody]
  unfold sign
  split
  · exact ⟨'-', c :: rest, rfl, .inr rfl⟩
  · exact ⟨c, rest, rfl, .inl hc⟩

/-- The other numbers have names. -/
theorem write_of_not_isFinite (layout : Layout) {x : Float} (hx : x.isFinite = false) :
    layout.write x ∈ ["NaN", "inf", "-inf"] := by
  unfold write
  dsimp only
  split
  · decide
  next hnan =>
  have hinf : x.isInf = true := by
    by_contra hinf
    rw [isFinite_iff.2 ⟨Bool.eq_false_iff.2 hnan, Bool.eq_false_iff.2 hinf⟩] at hx
    cases hx
  rw [if_pos hinf]
  split
  · decide
  · decide

theorem write_ne_nil (layout : Layout) (x : Float) : (layout.write x).toList ≠ [] := by
  cases hx : x.isFinite with
  | true =>
    obtain ⟨c, rest, htext, -⟩ := write_begins layout hx
    simp [htext]
  | false =>
    exact (by decide : ∀ name ∈ ["NaN", "inf", "-inf"], name.toList ≠ []) _
      (write_of_not_isFinite layout hx)

end Layout

end GovernedCatalog.Decimal
