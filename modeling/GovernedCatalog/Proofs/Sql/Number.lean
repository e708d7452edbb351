import GovernedCatalog.Proofs.Decimal.Reading
import GovernedCatalog.Proofs.Sql.Spelling

/-!
# Numeric constants

Whole and floating-point numbers are written as one number, perhaps with a sign
in front of it, or as one of the words for infinity and for what is no number.
-/

namespace GovernedCatalog

open Decimal

namespace Sql

open Token

/-- A point and digits, or nothing. -/
def IsFraction (cs : List Char) : Prop :=
  cs = [] ∨ ∃ digits, cs = '.' :: digits ∧ ∀ c ∈ digits, c.isDigit

/-- The text of a number without a sign. -/
inductive IsNumeral : List Char → Prop
  | mk {whole fraction exponent : List Char} (hwhole : IsDigits whole)
      (hfraction : IsFraction fraction) (hexponent : IsExponent exponent) :
      IsNumeral (whole ++ (fraction ++ exponent))

namespace IsNumeral

theorem begins {cs : List Char} (h : IsNumeral cs) :
    ∃ c rest, cs = c :: rest ∧ c.isDigit := by
  cases h with
  | @mk whole _ _ hwhole =>
      obtain ⟨hne, hdigits⟩ := hwhole
      obtain ⟨c, whole, rfl⟩ := List.exists_cons_of_ne_nil hne
      exact ⟨c, _, rfl, hdigits c List.mem_cons_self⟩

theorem digits {cs : List Char} (h : IsDigits cs) : IsNumeral cs := by
  have hnumeral := mk h (.inl rfl) .none
  rwa [List.append_nil, List.append_nil] at hnumeral

theorem point {whole digits : List Char} (hwhole : IsDigits whole)
    (hdigits : ∀ c ∈ digits, c.isDigit) : IsNumeral (whole ++ '.' :: digits) := by
  have hnumeral := mk hwhole (.inr ⟨digits, rfl, hdigits⟩) .none
  rwa [List.append_nil] at hnumeral

end IsNumeral

theorem skipExponent_eq_nil {cs : List Char} (h : IsExponent cs) :
    skipExponent cs = [] := by
  cases h with
  | none => rfl
  | mark hc hsign hdigits =>
  obtain ⟨hne, hdigits⟩ := hdigits
  obtain ⟨d, digits, rfl⟩ := List.exists_cons_of_ne_nil hne
  obtain ⟨hd, hrest⟩ := List.forall_mem_cons.1 hdigits
  have hsigns : ¬(d = '+' ∨ d = '-') := by
    rintro (rfl | rfl) <;> simp at hd
  have hdrop : digits.dropWhile Char.isDigit = [] := by
    simpa [List.dropWhile_eq_nil_iff] using hrest
  rcases hsign with rfl | rfl | rfl <;> simp [skipExponent, hc, hsigns, hd, hdrop]

theorem closeNumber_nil (cs : List Char) :
    closeNumber cs [] = (.number (String.ofList cs) false, []) := by
  simp [closeNumber]

theorem begins_exponent {cs : List Char} (h : IsExponent cs) :
    Begins (fun c => c.isDigit = false) cs := by
  cases h with
  | none => exact begins_nil _
  | mark hc _ _ => rcases hc with rfl | rfl <;> simp

theorem readNumber_numeral {cs : List Char} (h : IsNumeral cs) :
    readNumber cs = (.number (String.ofList cs) false, []) := by
  cases h with
  | @mk whole fraction exponent hwhole hfraction hexponent =>
      obtain ⟨hne, hdigits⟩ := hwhole
      have hstop := begins_exponent hexponent
      have hskip := skipExponent_eq_nil hexponent
      rcases hfraction with rfl | ⟨digits, rfl, hfraction⟩
      · obtain ⟨htake, hdrop⟩ := takeWhile_dropWhile_digits hdigits hstop
        have hclose : readNumber (whole ++ exponent) =
            closeNumber (whole ++ exponent) (skipExponent exponent) := by
          unfold readNumber
          rw [htake, hdrop]
          rcases hexponent with _ | ⟨rfl | rfl, -, -⟩ <;> simp
        rw [List.nil_append, hclose, hskip, closeNumber_nil]
      · have hpoint : Begins (fun c => c.isDigit = false)
            ('.' :: (digits ++ exponent)) := by simp
        obtain ⟨htake, hdrop⟩ := takeWhile_dropWhile_digits hdigits hpoint
        obtain ⟨-, hdrop'⟩ := takeWhile_dropWhile_digits hfraction hstop
        have hempty : whole.isEmpty = false := by simpa using hne
        simp [readNumber, htake, hdrop, hdrop', hempty, hskip, closeNumber_nil]

theorem read?_digit {c : Char} (hc : c.isDigit) (cs : List Char) :
    read? (c :: cs) =
      some (some (readNumber (c :: cs)).1, (readNumber (c :: cs)).2) := by
  have hplain : c ∉ ['-', '/', '\'', '"', '\x60', '$', '?'] := by
    intro hmem
    simp only [List.mem_cons, List.not_mem_nil, or_false] at hmem
    rcases hmem with rfl | rfl | rfl | rfl | rfl | rfl | rfl <;> simp at hc
  have hletter : c ∉ ['n', 'x', 'e'] := by
    intro hmem
    simp only [List.mem_cons, List.not_mem_nil, or_false] at hmem
    rcases hmem with rfl | rfl | rfl <;> simp at hc
  rw [read?_of_plain hplain (by rwa [toLower_of_isDigit hc])]
  simp [read?.readOther, hc]

theorem spells_numeral {cs : List Char} (h : IsNumeral cs) :
    SpellsWhole (String.ofList cs) [.number (String.ofList cs) false] := by
  have hread := readNumber_numeral h
  obtain ⟨c, rest, rfl, hc⟩ := h.begins
  apply Spells.of_token String.toList_ofList
  intro later hlater
  rw [read?_digit hc]
  cases later with
  | nil => simp [hread]
  | cons d tail =>
      have happend := readNumber_append_delimiter tail (begins_cons.1 hlater)
        (c :: rest)
      rw [List.cons_append] at happend
      simp [happend, hread]

/-- The sign of a number. -/
theorem spells_minus : Spells (fun c => c.isDigit) "-" [.mark "-"] := by
  have hsql : "-".toList = ['-'] := rfl
  apply Spells.of_token hsql
  intro rest hrest
  cases rest with
  | nil => rfl
  | cons c rest =>
      have hc := begins_cons.1 hrest
      have hplain : c ≠ '-' ∧ c ≠ '>' ∧ c ≠ '\'' := by
        refine ⟨?_, ?_, ?_⟩ <;> rintro rfl <;> simp at hc
      have hlength : "-".length = 1 := rfl
      have hmark : readMark ('-' :: c :: rest) = some (.mark "-", c :: rest) := by
        simp [readMark, marks, Ne.symm hplain.2.1, hlength]
      have hother : read?.readOther '-' (c :: rest) =
          (some (.mark "-"), c :: rest) := by
        simp [read?.readOther, isWordStart, Text.isLetter, hmark]
      rw [List.nil_append, read?, hother] <;> simp [hplain]

/-! ## Constants -/

/-- The tokens of a number, perhaps with a minus in front. -/
inductive IsSigned : List Token → Prop
  | plain (digits : String) : IsSigned [.number digits false]
  | negative (digits : String) : IsSigned [.mark "-", .number digits false]

theorem signed_writes {sql : String} {cs : List Char} (h : IsNumeral cs)
    {negative : Bool} (hsql : sql.toList = sign negative ++ cs) :
    Writes IsSigned sql := by
  have hspells := spells_numeral h
  cases negative with
  | false =>
      obtain rfl : sql = String.ofList cs := by simp [← String.toList_inj, hsql, sign]
      exact ⟨_, hspells, .plain _⟩
  | true =>
      obtain ⟨c, rest, rfl, hc⟩ := h.begins
      obtain rfl : sql = "-" ++ String.ofList (c :: rest) := by
        simp [← String.toList_inj, hsql, sign]
      refine ⟨_, spells_minus.append hspells fun _ => ?_, .negative _⟩
      simpa using hc

theorem toDigits_isDigits (n : Nat) : IsDigits (Nat.toDigits 10 n) :=
  ⟨Nat.toDigits_ne_nil, fun _ =>
    Nat.isDigit_of_mem_toDigits (by norm_num) (by norm_num)⟩

theorem int_writes (n : Int) : Writes IsSigned (toString n) :=
  signed_writes (.digits (toDigits_isDigits n.natAbs)) (toList_int n)

theorem plain_isNumeral {d : Digits} (hdigits : ∀ c ∈ d.digits, c.isDigit) :
    IsNumeral (Layout.plain d) := by
  obtain ⟨whole, fraction, hplain, hne, hwhole, hfraction, -⟩ := Layout.plain_eq hdigits
  rw [hplain]
  exact IsNumeral.point ⟨hne, hwhole⟩ hfraction

theorem scientific_isNumeral {d : Digits} (hne : d.digits ≠ [])
    (hdigits : ∀ c ∈ d.digits, c.isDigit) :
    IsNumeral (constantLayout.scientific d) := by
  unfold Layout.scientific
  dsimp only
  generalize hmark : (if d.point - 1 < 0 then
      '-' :: Nat.toDigits 10 (-(d.point - 1)).toNat
    else constantLayout.exponentSign.toList ++
      Nat.toDigits 10 (d.point - 1).toNat) = mark
  have hexponent : IsExponent ('e' :: mark) := by
    split at hmark
    · rw [← hmark]
      exact @IsExponent.mark _ (.inl rfl) ['-'] _ (.inr (.inl rfl)) (toDigits_isDigits _)
    · rw [← hmark]
      exact @IsExponent.mark _ (.inl rfl) [] _ (.inl rfl) (toDigits_isDigits _)
  obtain ⟨c, rest, hrest⟩ := List.exists_cons_of_ne_nil hne
  rw [hrest] at hdigits ⊢
  obtain ⟨hc, hdigits⟩ := List.forall_mem_cons.1 hdigits
  have hfirst : IsDigits [c] := by simp [IsDigits, hc]
  cases rest with
  | nil => exact .mk hfirst (.inl rfl) hexponent
  | cons c' rest => exact .mk hfirst (.inr ⟨_, rfl, hdigits⟩) hexponent

theorem body_isNumeral {b : Binary} (hb : b.mantissa ≠ 0 → b.Positive) :
    IsNumeral (constantLayout.body b) := by
  unfold Layout.body
  split
  · exact @IsNumeral.point ['0'] ['0'] (by simp [IsDigits]) (by simp)
  next hmantissa =>
  obtain ⟨hne, hdigits⟩ := Binary.digitsOf_spec (hb hmantissa) constantLayout.tie
  dsimp only
  split
  · exact plain_isNumeral hdigits
  · exact scientific_isNumeral hne hdigits

/-- A finite number is written as one that is read again, with its sign. -/
theorem finite_writes {x : Float} (hx : x.isFinite = true) :
    Writes IsSigned (constantLayout.write x) :=
  signed_writes (body_isNumeral Binary.ofBits_positive) (constantLayout.toList_write hx)

/-- The tokens of the names of numbers that are not finite. -/
inductive IsNamedNumber : List Token → Prop
  | notANumber : IsNamedNumber [.word "NaN"]
  | infinity : IsNamedNumber [.word "inf"]
  | negative : IsNamedNumber [.mark "-", .word "inf"]

theorem named_writes {x : Float} (hx : x.isFinite = false) :
    Writes IsNamedNumber (constantLayout.write x) := by
  have hname := constantLayout.write_of_not_isFinite hx
  generalize constantLayout.write x = sql at hname
  simp only [List.mem_cons, List.not_mem_nil, or_false] at hname
  rcases hname with rfl | rfl | rfl
  · exact ⟨_, .of_readsAs (by decide +kernel), .notANumber⟩
  · exact ⟨_, .of_readsAs (by decide +kernel), .infinity⟩
  · exact ⟨_, .of_readsAs (by decide +kernel), .negative⟩

/-- The tokens of a numeric constant. -/
inductive IsNumber : List Token → Prop
  | number (digits : String) : IsNumber [.number digits false]
  | infinity : IsNumber [.word "inf"]
  | notANumber : IsNumber [.word "NaN"]
  | negative {tokens : List Token} (h : IsNumber tokens) :
      IsNumber (.mark "-" :: tokens)

theorem IsSigned.isNumber {tokens : List Token} (h : IsSigned tokens) : IsNumber tokens := by
  cases h with
  | plain digits => exact .number digits
  | negative digits => exact .negative (.number digits)

theorem IsNamedNumber.isNumber {tokens : List Token} (h : IsNamedNumber tokens) :
    IsNumber tokens := by
  cases h with
  | notANumber => exact .notANumber
  | infinity => exact .infinity
  | negative => exact .negative .infinity

/-- The text is that of a numeric constant. -/
def SpellsNumber (sql : String) : Prop :=
  ∃ tokens, SpellsWhole sql tokens ∧ IsNumber tokens

theorem spellsNumber_int (n : Int) : SpellsNumber (toString n) :=
  (int_writes n).mono fun _ => IsSigned.isNumber

/-- A floating-point number is written as a constant that is read as one. -/
theorem spellsNumber_write (x : Float) :
    SpellsNumber (constantLayout.write x) := by
  cases hx : x.isFinite with
  | true => exact (finite_writes hx).mono fun _ => IsSigned.isNumber
  | false => exact (named_writes hx).mono fun _ => IsNamedNumber.isNumber

end Sql

end GovernedCatalog
