import GovernedCatalog.ColumnType.Default
import GovernedCatalog.Proofs.ColumnType.Constant
import GovernedCatalog.Proofs.Decimal.Packing
import GovernedCatalog.Proofs.Json.Reading
import GovernedCatalog.Proofs.Sql.Spelling
import GovernedCatalog.Settings.Basic

/-!
# Constants that are written again

A constant that is written for a scalar type is read as a value for which the
type writes a constant again.  Whole and finite numbers always get the same one;
for a text in quotes it is the same if the type keeps the text.

## Texts without their casts

The reader of defaults takes the text before the last closing mark of a line
that a cast follows, and every quote there that is doubled once.  Of a quoted
text with a cast this leaves the text, unless a line ends in it.
-/

namespace GovernedCatalog

namespace Text

theorem replaceAll_double (quote : Char) (cs : List Char) :
    replaceAll [quote, quote] [quote] (double quote cs) = cs := by
  unfold replaceAll
  induction cs with
  | nil => rfl
  | cons c cs ih =>
    by_cases hc : c = quote
    · simp [double, hc, replaceFrom, ih]
    · simp [double, hc, replaceFrom, ih, Ne.symm hc]

theorem mem_of_mem_replaceAll {old new cs : List Char} {c : Char}
    (h : c ∈ replaceAll old new cs) : c ∈ new ∨ c ∈ cs := by
  have hfrom (skip : Nat) (cs : List Char) (h : c ∈ replaceFrom old new skip cs) :
      c ∈ new ∨ c ∈ cs := by
    induction skip, cs using replaceFrom.induct old with
    | case1 => cases h
    | case2 skip d rest ih => exact (ih h).imp_right (List.mem_cons_of_mem d)
    | case3 d rest hold ih =>
      rw [replaceFrom, if_pos hold] at h
      rcases List.mem_append.1 h with h | h
      · exact .inl h
      · exact (ih h).imp_right (List.mem_cons_of_mem d)
    | case4 d rest hold ih =>
      rw [replaceFrom, if_neg hold] at h
      rcases List.mem_cons.1 h with rfl | h
      · exact .inr List.mem_cons_self
      · exact (ih h).imp_right (List.mem_cons_of_mem d)
  exact hfrom 0 cs h

theorem mem_double {quote c : Char} {cs : List Char} :
    c ∈ double quote cs ↔ c ∈ cs := by
  induction cs with
  | nil => rfl
  | cons d cs ih => by_cases hd : d = quote <;> simp [double, hd, ih]

theorem length_le_length_double (quote : Char) (cs : List Char) :
    cs.length ≤ (double quote cs).length := by
  induction cs with
  | nil => exact Nat.le_refl _
  | cons c cs ih =>
    by_cases hc : c = quote
    · simp only [double, hc, if_true, List.length_cons]
      omega
    · simpa [double, hc] using ih

end Text

/-- The text has no mark that closes what a cast is applied to. -/
def Unclosing (cs : List Char) : Prop := ∀ c ∈ cs, c ≠ '\'' ∧ c ≠ ')'

theorem Unclosing.beforeCast?_eq_none {cs : List Char} (h : Unclosing cs) :
    beforeCast? cs = none := by
  induction cs with
  | nil => rfl
  | cons c cs ih =>
    obtain ⟨hc, hcs⟩ := List.forall_mem_cons.1 h
    simp [beforeCast?, ih hcs, hc]

/-- On one line the last closing mark with a cast counts. -/
theorem beforeCast?_eq_some {cs tail : List Char} (hcs : '\n' ∉ cs)
    (htail : Unclosing tail) :
    beforeCast? (cs ++ '\'' :: ':' :: ':' :: tail) = some cs := by
  induction cs with
  | nil =>
    have hrest : Unclosing (':' :: ':' :: tail) := by
      simpa [Unclosing] using htail
    rw [List.nil_append, beforeCast?, if_neg (by decide),
      hrest.beforeCast?_eq_none]
    simp
  | cons c cs ih =>
    obtain ⟨hc, hcs⟩ := not_or.1 (mt List.mem_cons.2 hcs)
    rw [List.cons_append, beforeCast?, if_neg (Ne.symm hc), ih hcs]

/-- What is before a cast stands on one line. -/
theorem newline_not_mem_of_beforeCast? {cs found : List Char}
    (h : beforeCast? cs = some found) : '\n' ∉ found := by
  induction cs generalizing found with
  | nil => cases h
  | cons c cs ih =>
    rw [beforeCast?] at h
    split at h
    · next cs' hlonger =>
      cases h
      obtain ⟨hc, hlonger⟩ := Option.ite_none_left_eq_some.1 hlonger
      exact fun hmem => (List.mem_cons.1 hmem).elim (Ne.symm hc) (ih hlonger)
    · obtain ⟨-, h⟩ := Option.ite_none_right_eq_some.1 h
      cases h
      exact List.not_mem_nil

section Quoted

variable {text tail : String}

theorem toList_quoted (text tail : String) :
    (Sql.literal text ++ "::" ++ tail).toList =
      '\'' :: (Text.double '\'' text.toList ++ '\'' :: ':' :: ':' :: tail.toList) := by
  simp [Sql.toList_literal]

/-- A text on one line is left of its constant. -/
theorem uncast_quoted (htext : '\n' ∉ text.toList) (htail : Unclosing tail.toList) :
    uncast (Sql.literal text ++ "::" ++ tail) = text := by
  have hdouble : '\n' ∉ Text.double '\'' text.toList := mt Text.mem_double.1 htext
  have hbefore := beforeCast?_eq_some hdouble htail
  unfold uncast
  simp only [toList_quoted, true_or, if_true, hbefore, Text.replaceAll_double]
  exact String.ofList_toList

/-- A text of several lines is not: the reader either takes a part of one line
or gives up. -/
theorem uncast_quoted_ne (htext : '\n' ∈ text.toList) :
    uncast (Sql.literal text ++ "::" ++ tail) ≠ text := by
  unfold uncast
  simp only [toList_quoted, true_or, if_true]
  split
  · next cs hcs =>
    rintro rfl
    rw [String.toList_ofList] at htext
    have hnone := newline_not_mem_of_beforeCast? hcs
    simpa [hnone] using Text.mem_of_mem_replaceAll htext
  · intro h
    have hlength := congrArg (List.length ∘ String.toList) h
    have hdouble := Text.length_le_length_double '\'' text.toList
    simp only [Function.comp_apply, toList_quoted, List.length_cons,
      List.length_append] at hlength
    omega

end Quoted

/-! ## Constants of named types -/

/-- The constants of the named type stand between quotes. -/
def InQuotes (name : String) : Prop :=
  name ∉ integerNames ∧ name ∉ serialNames ∧ name ∉ realNames

instance (name : String) : Decidable (InQuotes name) :=
  inferInstanceAs (Decidable (_ ∧ _))

/-- The texts in quotes that are written again once they are read. -/
def KeepsText (name text : String) : Prop :=
  if name ∈ booleanNames then text = "true" ∨ text = "false"
  else if name ∈ documentNames then ∃ v, Json.read? text = some v ∧ v.write = text
  else '\n' ∉ text.toList

theorem keepsText_iff_line {name text : String} (hboolean : name ∉ booleanNames)
    (hdocument : name ∉ documentNames) : KeepsText name text ↔ '\n' ∉ text.toList := by
  rw [KeepsText, if_neg hboolean, if_neg hdocument]

section Scalar

variable {name raw text tail : String} {v : Json} {v? : Option Json}

theorem constantText?_of_inQuotes (hname : InQuotes name) (v : Json) :
    constantText? name v =
      (quotedText? name v).map fun text => Sql.literal text ++ "::" ++ name := by
  obtain ⟨hwhole, hserial, hreal⟩ := hname
  unfold constantText?
  simp [hwhole, hserial, hreal]

/-- The constants of a named type, by the kind of the name. -/
inductive ScalarConstant (name : String) (v : Json) : String → Prop where
  | whole (hname : name ∈ integerNames ∨ name ∈ serialNames) {n : Int}
      (hv : wholeNumber? v = some n) : ScalarConstant name v (toString n)
  | real (hname : name ∈ realNames) {x : Float} (hv : realNumber? v = some x) :
      ScalarConstant name v (Decimal.constantLayout.write x)
  | quoted (hname : InQuotes name) {text : String}
      (hv : quotedText? name v = some text) :
      ScalarConstant name v (Sql.literal text ++ "::" ++ name)

theorem scalarConstant_of_constantText? {constant : String}
    (h : constantText? name v = some constant) : ScalarConstant name v constant := by
  by_cases hquotes : InQuotes name
  · rw [constantText?_of_inQuotes hquotes] at h
    obtain ⟨text, htext, rfl⟩ := Option.map_eq_some_iff.1 h
    exact .quoted hquotes htext
  unfold constantText? at h
  simp only [List.contains_iff_mem, Bool.or_eq_true] at h
  split at h
  · next hwhole =>
    obtain ⟨n, hn, rfl⟩ := Option.map_eq_some_iff.1 h
    exact .whole hwhole hn
  next hwhole =>
  obtain ⟨hinteger, hserial⟩ := not_or.1 hwhole
  have hreal : name ∈ realNames := by
    by_contra hreal
    exact hquotes ⟨hinteger, hserial, hreal⟩
  rw [if_pos hreal] at h
  obtain ⟨x, hx, rfl⟩ := Option.map_eq_some_iff.1 h
  exact .real hreal hx

theorem readScalarDefault_eq_ok (h : readScalarDefault name raw = .ok v?) :
    v? = none ∨ ∃ v, v? = some v ∧ readConstant? name (uncast raw) = some v := by
  unfold readScalarDefault at h
  split at h
  · cases h
    exact .inl rfl
  split at h
  · cases h
    exact .inl rfl
  split at h
  · next v hv =>
    cases h
    exact .inr ⟨v, rfl, hv⟩
  · cases h

/-- The expression is neither null nor the next value of a sequence. -/
def IsPlain (raw : String) : Prop :=
  ∃ c rest, raw.toList = c :: rest ∧ c ≠ 'n' ∧ c ≠ 'N'

theorem IsPlain.readScalarDefault_eq_ok (h : IsPlain raw) :
    readScalarDefault name raw = .ok v? ↔
      ∃ v, v? = some v ∧ readConstant? name (uncast raw) = some v := by
  obtain ⟨c, rest, hraw, hlower, hupper⟩ := h
  have hsequence : isSequenceDefault raw = false := by
    unfold isSequenceDefault Text.stripStart
    simp [hraw, Ne.symm hlower]
  have hnull : "NULL::".toList.isPrefixOf raw.toList = false := by
    simp [hraw, List.isPrefixOf, Ne.symm hupper]
  unfold readScalarDefault
  rw [hsequence, hnull, Bool.false_and, if_neg (by decide), if_neg (by decide)]
  cases readConstant? name (uncast raw) <;> simp [eq_comm]

/-- A text with a cast in front of anything that closes nothing. -/
theorem quoted_isPlain (text tail : String) :
    IsPlain (Sql.literal text ++ "::" ++ tail) :=
  ⟨_, _, toList_quoted text tail, by decide, by decide⟩

theorem readConstant?_of_inQuotes (hname : InQuotes name) (constant : String) :
    readConstant? name constant =
      if name ∈ booleanNames then some (.bool (isTrue constant))
      else if name ∈ documentNames then Json.read? constant
      else some (.str constant) := by
  obtain ⟨hwhole, -, hreal⟩ := hname
  unfold readConstant?
  simp [hwhole, hreal]

theorem newline_not_mem_quotedText? (hname : name ∈ documentNames)
    (h : quotedText? name v = some text) : '\n' ∉ text.toList := by
  unfold quotedText? at h
  rw [if_pos (List.contains_iff_mem.2 hname)] at h
  cases h
  exact Json.newline_not_mem_write v

theorem documentNames_apart_booleanNames :
    ∀ name ∈ documentNames, name ∉ booleanNames := by decide

theorem serialNames_apart :
    ∀ name ∈ serialNames, name ∉ realNames ∧ name ∉ booleanNames ∧
      name ∉ documentNames := by decide

theorem isTrue_true : isTrue "true" = true := by decide

theorem isTrue_false : isTrue "false" = false := by decide

/-- What is read for a text in quotes is written with the same text exactly if
the type keeps the text. -/
theorem readConstant?_iff_keepsText (hname : InQuotes name)
    (htail : Unclosing tail.toList) :
    (∃ v, readConstant? name (uncast (Sql.literal text ++ "::" ++ tail)) = some v ∧
      quotedText? name v = some text) ↔ KeepsText name text := by
  have huncast (h : '\n' ∉ text.toList) :
      uncast (Sql.literal text ++ "::" ++ tail) = text := uncast_quoted h htail
  simp only [readConstant?_of_inQuotes hname]
  unfold KeepsText
  by_cases hdocument : name ∈ documentNames
  · have hboolean := documentNames_apart_booleanNames name hdocument
    simp only [hboolean, hdocument, if_true, if_false]
    constructor
    · rintro ⟨v, hread, hwrite⟩
      rw [huncast (newline_not_mem_quotedText? hdocument hwrite)] at hread
      refine ⟨v, hread, ?_⟩
      simpa [quotedText?, hdocument] using hwrite
    · rintro ⟨v, hread, rfl⟩
      rw [huncast (Json.newline_not_mem_write v)]
      exact ⟨v, hread, by simp [quotedText?, hdocument]⟩
  by_cases hboolean : name ∈ booleanNames
  · simp only [hboolean, if_true, Option.some.injEq, exists_eq_left', quotedText?,
      List.contains_iff_mem, hdocument, if_false]
    constructor
    · intro h
      cases hvalue : isTrue (uncast (Sql.literal text ++ "::" ++ tail)) with
      | true => exact .inl (by rw [← h, hvalue]; rfl)
      | false => exact .inr (by rw [← h, hvalue]; rfl)
    · rintro (rfl | rfl)
      · rw [huncast (by decide), isTrue_true]
        rfl
      · rw [huncast (by decide), isTrue_false]
        rfl
  · simp only [hboolean, hdocument, if_false, Option.some.injEq, exists_eq_left',
      quotedText?, List.contains_iff_mem]
    constructor
    · intro h hnewline
      exact uncast_quoted_ne hnewline h
    · exact huncast

end Scalar

/-! ## Constants written again -/

/-- The constant that is written for the value an expression denotes. -/
def ColumnType.rewritten (t : ColumnType) (raw : String) : Except Error String := do
  let v? ← t.readDefault raw
  t.literal (Json.ofOption v?)

section Rewritten

variable {name raw constant text tail : String} {v : Json} {v? : Option Json}

theorem scalar_literal_eq_ok :
    (ColumnType.scalar name).literal v = .ok constant ↔
      constantText? name v = some constant := by
  unfold ColumnType.literal
  cases constantText? name v <;> simp

theorem scalar_readDefault (h : raw.toList ≠ []) :
    (ColumnType.scalar name).readDefault raw = readScalarDefault name raw := by
  have hempty : raw.isEmpty = false := by simpa using h
  unfold ColumnType.readDefault
  simp [hempty]

theorem IsPlain.scalar_readDefault (h : IsPlain raw) :
    (ColumnType.scalar name).readDefault raw = .ok v? ↔
      ∃ v, v? = some v ∧ readConstant? name (uncast raw) = some v := by
  have hne : raw.toList ≠ [] := by
    obtain ⟨c, rest, hraw, -⟩ := h
    simp [hraw]
  rw [GovernedCatalog.scalar_readDefault hne, h.readScalarDefault_eq_ok]

/-- A scalar reads no null for a plain expression. -/
theorem IsPlain.scalar_rewritten (h : IsPlain raw) :
    (ColumnType.scalar name).rewritten raw = .ok constant ↔
      ∃ v, readConstant? name (uncast raw) = some v ∧
        constantText? name v = some constant := by
  unfold ColumnType.rewritten
  simp only [bind_eq_ok, h.scalar_readDefault]
  constructor
  · rintro ⟨_, ⟨v, rfl, hread⟩, hwrite⟩
    exact ⟨v, hread, scalar_literal_eq_ok.1 hwrite⟩
  · rintro ⟨v, hread, hwrite⟩
    exact ⟨some v, ⟨v, rfl, hread⟩, scalar_literal_eq_ok.2 hwrite⟩

theorem IsPlain.scalar_recovered (h : IsPlain raw) :
    (∃ w, (ColumnType.scalar name).default? (some raw) = .ok (some w) ∧
      (ColumnType.scalar name).literal w = .ok constant) ↔
      (ColumnType.scalar name).rewritten raw = .ok constant := by
  rw [h.scalar_rewritten]
  simp only [ColumnType.default?, h.scalar_readDefault, Option.some.injEq,
    exists_eq_left', scalar_literal_eq_ok]

theorem quoted_inj {text' tail' : String} :
    Sql.literal text ++ "::" ++ tail = Sql.literal text' ++ "::" ++ tail' ↔
      text = text' ∧ tail = tail' := by
  constructor
  · intro h
    have htext := congrArg String.toList h
    rw [toList_quoted, toList_quoted, List.cons.injEq] at htext
    have hscan := Text.scan_double '\'' text.toList (':' :: ':' :: tail.toList) (by simp)
    have hscan' := Text.scan_double '\'' text'.toList (':' :: ':' :: tail'.toList) (by simp)
    rw [htext.2, hscan'] at hscan
    obtain ⟨htext, htail⟩ := Prod.mk.inj (Option.some.inj hscan)
    exact ⟨(String.toList_inj.1 htext).symm, String.toList_inj.1 (by simpa using htail.symm)⟩
  · rintro ⟨rfl, rfl⟩
    rfl

theorem constantText?_eq_quoted (hname : InQuotes name) :
    constantText? name v = some (Sql.literal text ++ "::" ++ name) ↔
      quotedText? name v = some text := by
  rw [constantText?_of_inQuotes hname, Option.map_eq_some_iff]
  constructor
  · rintro ⟨text', htext, h⟩
    rwa [← (quoted_inj.1 h).1]
  · intro h
    exact ⟨text, h, rfl⟩

/-- In front of anything that closes nothing, a text in quotes is written again
exactly if its type keeps it. -/
theorem quoted_rewritten_iff (hname : InQuotes name) (htail : Unclosing tail.toList) :
    (ColumnType.scalar name).rewritten (Sql.literal text ++ "::" ++ tail) =
      .ok (Sql.literal text ++ "::" ++ name) ↔ KeepsText name text := by
  rw [(quoted_isPlain text tail).scalar_rewritten]
  simp only [constantText?_eq_quoted hname]
  exact readConstant?_iff_keepsText hname htail

/-! ### Numbers -/

/-- An expression that does not open anything at its start is taken whole. -/
theorem uncast_of_head (h : ∀ c, raw.toList.head? = some c → c ≠ '\'' ∧ c ≠ '(') :
    uncast raw = raw := by
  unfold uncast
  split
  · next c rest hraw =>
    have hc := h c (by rw [hraw, List.head?_cons])
    simp [hc]
  · rfl

theorem isBlank_of_isDigit {c : Char} (hc : c.isDigit) : Text.isBlank c = false := by
  have hrange : 48 ≤ c.toNat ∧ c.toNat ≤ 57 := by
    simpa [Char.isDigit, UInt32.le_iff_toNat_le] using hc
  unfold Text.isBlank
  generalize c.toNat = n at hrange
  simp
  omega

/-- Numbers are written with these characters. -/
def IsNumeric (c : Char) : Prop := Decimal.constantLayout.Uses c

theorem IsNumeric.plain {c : Char} (hc : IsNumeric c) :
    Text.isBlank c = false ∧ c ≠ '\'' ∧ c ≠ '(' := by
  rcases hc with hc | hc | hc
  · refine ⟨isBlank_of_isDigit hc, ?_, ?_⟩ <;> rintro rfl <;> cases hc
  · cases hc
  · have hmarks : ['-', '.', 'e', 'N', 'a', 'i', 'n', 'f'].all
        (fun c => !Text.isBlank c && c != '\'' && c != '(') = true := by decide
    simpa [and_assoc] using List.all_eq_true.1 hmarks c hc

/-- Nothing is written for what a type of numbers reads in a text with a
bracket. -/
theorem constantText?_of_bracket (hname : ¬InQuotes name) (hbracket : '[' ∈ raw.toList)
    (hhead : ∀ c, raw.toList.head? = some c → c ≠ '\'' ∧ c ≠ '(')
    (h : readScalarDefault name raw = .ok v?) :
    constantText? name (Json.ofOption v?) = none := by
  have htrim := Text.mem_trim (by decide : Text.isBlank '[' = false) hbracket
  obtain rfl | ⟨v, rfl, hv⟩ := readScalarDefault_eq_ok h
  · refine constantText?_null.2 fun hdocument => hname ?_
    exact documentNames_apart name hdocument
  rw [uncast_of_head hhead] at hv
  unfold readConstant? at hv
  simp only [List.contains_iff_mem, Decimal.readInt?_bracket htrim,
    Decimal.readFloat?_bracket htrim] at hv
  split at hv
  · cases hv
  next hwhole =>
  split at hv
  · cases hv
  next hreal =>
  -- A serial type reads the text as it is.
  have hserial : name ∈ serialNames := by
    by_contra hserial
    exact hname ⟨hwhole, hserial, hreal⟩
  obtain ⟨-, hboolean, hdocument⟩ := serialNames_apart name hserial
  rw [if_neg hboolean, if_neg hdocument] at hv
  cases hv
  rw [GovernedCatalog.constantText?_eq_none_iff, if_pos (.inr hserial)]
  exact Decimal.readInt?_bracket htrim

theorem isNumeric_of_mem_int {n : Int} {c : Char} (hc : c ∈ (toString n).toList) :
    IsNumeric c := by
  rcases Decimal.mem_toString_int hc with hc | rfl
  · exact .inl hc
  · exact .inr (.inr (by decide))

/-- Whatever is written without quotes is written with such characters. -/
theorem ScalarConstant.numeric (h : ScalarConstant name v constant)
    (hname : ¬InQuotes name) :
    constant.toList ≠ [] ∧ ∀ c ∈ constant.toList, IsNumeric c := by
  cases h with
  | @whole _ n _ =>
    obtain ⟨c, rest, htext, -⟩ := Decimal.toString_int_begins n
    exact ⟨htext ▸ List.cons_ne_nil c rest, fun _ => isNumeric_of_mem_int⟩
  | real _ _ =>
    exact ⟨Decimal.Layout.write_ne_nil _ _, fun _ => Decimal.Layout.uses_of_mem_write⟩
  | quoted hquotes _ => exact absurd hquotes hname

/-- The text of a number is an expression of its own. -/
structure IsNumberText (raw : String) : Prop where
  begins : ∃ c rest, raw.toList = c :: rest ∧ (c.isDigit ∨ c = '-')
  numeric : ∀ c ∈ raw.toList, IsNumeric c

namespace IsNumberText

theorem isPlain (h : IsNumberText raw) : IsPlain raw := by
  obtain ⟨c, rest, hraw, hc⟩ := h.begins
  refine ⟨c, rest, hraw, ?_, ?_⟩ <;> rintro rfl <;> simp at hc

theorem uncast_eq (h : IsNumberText raw) : uncast raw = raw :=
  uncast_of_head fun _ hc => (h.numeric _ (List.mem_of_head? hc)).plain.2

theorem trim_eq (h : IsNumberText raw) : Text.trim raw.toList = raw.toList :=
  Text.trim_of_forall fun c hc => (h.numeric c hc).plain.1

theorem int (n : Int) : IsNumberText (toString n) where
  begins := Decimal.toString_int_begins n
  numeric _ := isNumeric_of_mem_int

theorem real {x : Float} (hx : x.isFinite = true) :
    IsNumberText (Decimal.constantLayout.write x) where
  begins := Decimal.Layout.write_begins _ hx
  numeric _ hc := Decimal.Layout.uses_of_mem_write hc

end IsNumberText

theorem wholeNumber?_fits {n : Int} (h : wholeNumber? v = some n) :
    Decimal.fitsInt64 n = true := by
  unfold wholeNumber? at h
  split at h
  · obtain ⟨hfits, h⟩ := Option.ite_none_right_eq_some.1 h
    cases h
    exact hfits
  · exact readInt?_fits h
  · cases h

/-- Whole numbers are written again, by serial types from their texts. -/
theorem whole_rewritten (hname : name ∈ integerNames ∨ name ∈ serialNames) {n : Int}
    (hn : Decimal.fitsInt64 n = true) :
    (ColumnType.scalar name).rewritten (toString n) = .ok (toString n) := by
  have htext := IsNumberText.int n
  have hread : Decimal.readInt? (Text.trim (toString n).toList) = some n := by
    rw [htext.trim_eq, Decimal.readInt?_toString hn]
  rw [htext.isPlain.scalar_rewritten, htext.uncast_eq]
  have hwrite {v : Json} (hv : wholeNumber? v = some n) :
      constantText? name v = some (toString n) := by
    unfold constantText?
    rw [if_pos (by simpa using hname), hv]
    rfl
  by_cases hwhole : name ∈ integerNames
  · refine ⟨.int n, ?_, hwrite (if_pos hn)⟩
    unfold readConstant?
    rw [if_pos (List.contains_iff_mem.2 hwhole), hread]
    rfl
  · have hserial := hname.resolve_left hwhole
    obtain ⟨hreal, hboolean, hdocument⟩ := serialNames_apart name hserial
    refine ⟨.str (toString n), ?_, hwrite hread⟩
    unfold readConstant?
    simp [hwhole, hreal, hboolean, hdocument]

theorem realNames_unnamed : ∀ name ∈ realNames, ∀ raw ∈ ["NaN", "inf", "-inf"],
    readConstant? name (uncast raw) = none := by
  have hnone : ∀ name ∈ realNames, ∀ raw ∈ ["NaN", "inf", "-inf"],
      (readConstant? name (uncast raw)).isNone := by decide +kernel
  exact fun name hname raw hraw => Option.isNone_iff_eq_none.1 (hnone name hname raw hraw)

/-- Finite numbers are written again. -/
theorem real_rewritten (hname : name ∈ realNames) {x : Float} (hx : x.isFinite = true) :
    (ColumnType.scalar name).rewritten (Decimal.constantLayout.write x) =
      .ok (Decimal.constantLayout.write x) := by
  obtain ⟨hnan, hinf⟩ := Decimal.Layout.isFinite_iff.1 hx
  obtain ⟨hwhole, hserial⟩ := realNames_apart name hname
  have htext := IsNumberText.real hx
  have hread : Decimal.readFloat? (Decimal.constantLayout.write x).toList = some x :=
    Decimal.Layout.readFloat?_write (.inl rfl) hx
  rw [htext.isPlain.scalar_rewritten, htext.uncast_eq]
  refine ⟨.real x, ?_, ?_⟩
  · unfold readConstant?
    simp only [List.contains_iff_mem, hwhole, hname, if_true, if_false, htext.trim_eq, hread,
      hnan, hinf, Bool.or_self, Bool.false_eq_true]
  · unfold constantText?
    simp [hwhole, hserial, hname, realNumber?]

end Rewritten

end GovernedCatalog
