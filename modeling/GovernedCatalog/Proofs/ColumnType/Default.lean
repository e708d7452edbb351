import GovernedCatalog.Proofs.ColumnType.Rewriting
import GovernedCatalog.Proofs.ColumnType.Spelling
import GovernedCatalog.Proofs.Decimal.Reading

/-!
# Computed defaults

A number type reads a default only from a constant, or from a number between marks
with a cast of which nothing else is checked.  A type of documents reads any JSON
text, and every other type takes the text of any expression for a constant.
-/

namespace GovernedCatalog

open Decimal

/-! ## Constants -/

/-- The text is a number, perhaps between blanks. -/
def IsNumberBetweenBlanks (text : String) : Prop := SignedNumber (Text.trim text.toList)

/-- The expressions that are constants: numbers, truth values in any case, texts in
quotes, and texts or numbers with a cast. -/
inductive ConstantExpression : String → Prop
  | number {raw : String} (h : IsNumberBetweenBlanks raw) : ConstantExpression raw
  | truth {raw : String} (h : String.ofList (raw.toList.map Char.toLower) ∈ ["true", "false"]) :
      ConstantExpression raw
  | quoted (text : String) : ConstantExpression (Sql.literal text)
  | cast (text : String) {type : String} (htype : NamesType type) :
      ConstantExpression (Sql.literal text ++ "::" ++ type)
  | parenthesised {number type : String} (hnumber : IsNumberBetweenBlanks number)
      (htype : NamesType type) : ConstantExpression ("(" ++ number ++ ")::" ++ type)

/-- The expressions that denote no default. -/
inductive NoDefault (name : String) : String → Prop
  | empty : NoDefault name ""
  | null (rest : String) : NoDefault name ("NULL::" ++ rest)
  | sequence (hname : isSubtext "serial" name = true) {raw : String}
      (h : isSequenceDefault raw = true) : NoDefault name raw

/-- A number between marks, with what seems to be a cast.  The marks may differ, and
anything may stand where the type belongs. -/
inductive UncheckedCast : String → Prop
  | mk {opening closing : Char} {number type : String}
      (hopening : opening = '\'' ∨ opening = '(') (hclosing : closing = '\'' ∨ closing = ')')
      (hnumber : IsNumberBetweenBlanks number)
      (h : ¬((opening = '\'' ↔ closing = '\'') ∧ NamesType type)) :
      UncheckedCast (String.ofList [opening] ++ number ++ String.ofList [closing] ++ "::" ++ type)

theorem IsNumberBetweenBlanks.plain {text : String} (h : IsNumberBetweenBlanks text) {c : Char}
    (hc : c ∈ text.toList) : Text.isBlank c = true ∨ IsNotation c := by
  cases hblank : Text.isBlank c with
  | true => exact .inl rfl
  | false => exact .inr (h.isNotation (Text.mem_trim hblank hc))

theorem IsNumberBetweenBlanks.quote_not_mem {text : String} (h : IsNumberBetweenBlanks text) :
    '\'' ∉ text.toList := by
  intro hc
  rcases h.plain hc with hc | hc
  · exact absurd hc (by decide)
  · exact absurd hc (by decide)

theorem double_of_not_mem {quote : Char} {cs : List Char} (h : quote ∉ cs) :
    Text.double quote cs = cs := by
  induction cs with
  | nil => rfl
  | cons c cs ih =>
    obtain ⟨hc, hcs⟩ := not_or.1 (mt List.mem_cons.2 h)
    rw [Text.double, if_neg (Ne.symm hc), ih hcs]

/-- A quote is left in a text in which quotes are halved. -/
theorem replaceAll_of_not_mem {quote : Char} {cs : List Char}
    (h : quote ∉ Text.replaceAll [quote, quote] [quote] cs) :
    Text.replaceAll [quote, quote] [quote] cs = cs := by
  unfold Text.replaceAll at h ⊢
  induction cs with
  | nil => rfl
  | cons c cs ih =>
    rw [Text.replaceFrom] at h ⊢
    split at h
    · simp at h
    · next hdouble =>
      rw [if_neg hdouble, ih (mt (List.mem_cons_of_mem c) h)]

/-! ## Texts before casts -/

theorem beforeCast?_sound {cs found : List Char} (h : beforeCast? cs = some found) :
    ∃ closing rest, (closing = '\'' ∨ closing = ')') ∧
      cs = found ++ closing :: ':' :: ':' :: rest := by
  induction cs generalizing found with
  | nil => cases h
  | cons c cs ih =>
    rw [beforeCast?] at h
    split at h
    · next cs' hlonger =>
      cases h
      obtain ⟨-, hlonger⟩ := Option.ite_none_left_eq_some.1 hlonger
      obtain ⟨closing, rest, hclosing, rfl⟩ := ih hlonger
      exact ⟨closing, rest, hclosing, rfl⟩
    · obtain ⟨⟨hc, hcast⟩, h⟩ := Option.ite_none_right_eq_some.1 h
      cases h
      obtain ⟨rest, rfl⟩ := List.isPrefixOf_iff_prefix.1 hcast
      exact ⟨c, rest, hc, rfl⟩

/-- The reader takes the whole expression, or what is between marks before a cast. -/
theorem uncast_cases (raw : String) :
    uncast raw = raw ∨ ∃ opening found closing rest, (opening = '\'' ∨ opening = '(') ∧
      (closing = '\'' ∨ closing = ')') ∧
      raw.toList = opening :: (found ++ closing :: ':' :: ':' :: rest) ∧
      (uncast raw).toList = Text.replaceAll ['\'', '\''] ['\''] found := by
  unfold uncast
  dsimp only
  split
  · next found hfound =>
    refine .inr ?_
    split at hfound
    · next opening more hraw =>
      obtain ⟨hopening, hfound⟩ := Option.ite_none_right_eq_some.1 hfound
      obtain ⟨closing, rest, hclosing, rfl⟩ := beforeCast?_sound hfound
      exact ⟨opening, found, closing, rest, hopening, hclosing, hraw, String.toList_ofList⟩
    · cases hfound
  · exact .inl rfl

/-- If a number is left of an expression, then nothing but its cast can be wrong. -/
theorem IsNumberBetweenBlanks.of_uncast {raw : String} (h : IsNumberBetweenBlanks (uncast raw)) :
    ConstantExpression raw ∨ UncheckedCast raw := by
  obtain huncast | ⟨opening, found, closing, rest, hopening, hclosing, hraw, huncast⟩ :=
    uncast_cases raw
  · rw [huncast] at h
    exact .inl (.number h)
  -- A number has no quote in it, so no doubled quote was halved.
  have hquote := h.quote_not_mem
  rw [huncast] at hquote
  have hfound := replaceAll_of_not_mem hquote
  rw [hfound] at huncast hquote
  by_cases hcast : (opening = '\'' ↔ closing = '\'') ∧ NamesType (String.ofList rest)
  · left
    obtain ⟨hmarks, htype⟩ := hcast
    rcases hopening with rfl | rfl
    · obtain rfl := hmarks.1 rfl
      have hquoted : raw = Sql.literal (uncast raw) ++ "::" ++ String.ofList rest := by
        rw [← String.toList_inj, toList_quoted, huncast, double_of_not_mem hquote,
          String.toList_ofList, hraw]
      rw [hquoted]
      exact .cast _ htype
    · obtain rfl := hclosing.resolve_left (mt hmarks.2 (by decide))
      have hbrackets : raw = "(" ++ uncast raw ++ ")::" ++ String.ofList rest := by
        simp [← String.toList_inj, huncast, hraw]
      rw [hbrackets]
      exact .parenthesised h htype
  · right
    have hmarked : raw = String.ofList [opening] ++ uncast raw ++ String.ofList [closing] ++ "::" ++
        String.ofList rest := by
      simp [← String.toList_inj, huncast, hraw]
    rw [hmarked]
    exact .mk hopening hclosing h hcast

/-! ## Expressions that are no constants -/

section Computed

variable {raw : String}

/-- Constants, and numbers in front of an unchecked cast, begin with these. -/
def BeginsConstant (c : Char) : Prop :=
  Text.isBlank c = true ∨ IsNotation c ∨ c.toLower ∈ ['t', 'f'] ∨ c ∈ ['\'', '(']

instance (c : Char) : Decidable (BeginsConstant c) :=
  inferInstanceAs (Decidable (_ ∨ _))

theorem ConstantExpression.begins (h : ConstantExpression raw) {c : Char} {rest : List Char}
    (hraw : raw.toList = c :: rest) : BeginsConstant c := by
  cases h with
  | number h => exact (h.plain (hraw ▸ List.mem_cons_self)).imp_right .inl
  | truth h =>
    rw [hraw, List.map_cons] at h
    have hlower : c.toLower = 't' ∨ c.toLower = 'f' := by
      refine (List.mem_pair.1 h).imp (fun h => ?_) fun h => ?_
      · simpa using congrArg (fun s => s.toList.head?) h
      · simpa using congrArg (fun s => s.toList.head?) h
    exact .inr (.inr (.inl (List.mem_pair.2 hlower)))
  | quoted text =>
    rw [Sql.toList_literal] at hraw
    obtain rfl := (List.cons.inj hraw).1
    decide
  | cast text _ =>
    rw [toList_quoted] at hraw
    obtain rfl := (List.cons.inj hraw).1
    decide
  | parenthesised _ _ =>
    obtain rfl : '(' = c := by simpa using congrArg List.head? hraw
    decide

theorem UncheckedCast.begins (h : UncheckedCast raw) {c : Char} {rest : List Char}
    (hraw : raw.toList = c :: rest) : BeginsConstant c := by
  cases h with
  | @mk opening _ _ _ hopening _ _ _ =>
    obtain rfl : opening = c := by simpa using congrArg List.head? hraw
    rcases hopening with rfl | rfl <;> decide

/-- Only a name of a type makes a text with a cast a constant. -/
theorem constantExpression_cast_iff {text type : String} :
    ConstantExpression (Sql.literal text ++ "::" ++ type) ↔ NamesType type := by
  refine ⟨fun h => ?_, .cast text⟩
  generalize hraw : Sql.literal text ++ "::" ++ type = raw at h
  have hlist : raw.toList = '\'' :: (Text.double '\'' text.toList ++
      '\'' :: ':' :: ':' :: type.toList) := by
    rw [← hraw, toList_quoted]
  cases h with
  | number h =>
    refine absurd ?_ h.quote_not_mem
    simp [hlist]
  | truth h =>
    rw [hlist, List.map_cons] at h
    rcases List.mem_pair.1 h with h | h <;> simp [← String.toList_inj] at h
  | quoted text' =>
    have hscan := Text.scan_double '\'' text.toList (':' :: ':' :: type.toList) (by simp)
    have hscan' := Text.scan_double '\'' text'.toList [] (by simp)
    rw [Sql.toList_literal, List.cons.injEq] at hlist
    rw [← hlist.2, hscan'] at hscan
    cases (Prod.mk.inj (Option.some.inj hscan)).2
  | cast text' htype =>
    rwa [← (quoted_inj.1 hraw).2] at htype
  | parenthesised _ _ =>
    simp at hlist

end Computed

/-! ## Defaults of scalars -/

section Scalar

variable {name raw : String} {v : Json}

theorem isNumber_of_readConstant? (hname : name ∈ integerNames ∨ name ∈ realNames) {text : String}
    (h : readConstant? name text = some v) : IsNumberBetweenBlanks text := by
  unfold readConstant? at h
  simp only [List.contains_iff_mem] at h
  split at h
  · obtain ⟨n, hn, -⟩ := Option.map_eq_some_iff.1 h
    exact readInt?_sound hn
  next hwhole =>
  rw [if_pos (hname.resolve_left hwhole)] at h
  split at h
  · next x hx =>
    obtain ⟨hfinite, -⟩ := Option.ite_none_left_eq_some.1 h
    refine readFloat?_sound hx (Layout.isFinite_iff.2 ?_)
    simpa using hfinite
  · cases h

theorem noDefault_iff : NoDefault name raw ↔
    raw.isEmpty = true ∨ (isSequenceDefault raw && isSubtext "serial" name) = true ∨
      "NULL::".toList.isPrefixOf raw.toList = true := by
  constructor
  · rintro (_ | rest | ⟨hname, h⟩)
    · exact .inl rfl
    · exact .inr (.inr (by simp))
    · exact .inr (.inl (by simp [hname, h]))
  · rintro (h | h | h)
    · obtain rfl : raw = "" := by simpa using h
      exact .empty
    · obtain ⟨hsequence, hname⟩ := Bool.and_eq_true_iff.1 h
      exact .sequence hname hsequence
    · obtain ⟨rest, hrest⟩ := List.isPrefixOf_iff_prefix.1 h
      obtain rfl : raw = "NULL::" ++ String.ofList rest := by
        rw [← String.toList_inj, ← hrest, String.toList_append]
        simp
      exact .null _

theorem default?_of_noDefault (h : NoDefault name raw) :
    (ColumnType.scalar name).default? (some raw) = .ok none := by
  change (ColumnType.scalar name).readDefault raw = _
  unfold ColumnType.readDefault readScalarDefault
  rcases noDefault_iff.1 h with h | h | h
  · rw [if_pos h]
  · dsimp only
    rw [if_pos h, ite_self]
  · dsimp only
    rw [if_pos h, ite_self, ite_self]

theorem default?_of_not_noDefault (h : ¬NoDefault name raw) :
    (ColumnType.scalar name).default? (some raw) =
      match readConstant? name (uncast raw) with
      | some v => .ok (some v)
      | none => .error (.invalidDefault name raw) := by
  obtain ⟨hempty, hsequence, hnull⟩ : _ ∧ _ ∧ _ := by
    simpa only [noDefault_iff, not_or] using h
  change (ColumnType.scalar name).readDefault raw = _
  unfold ColumnType.readDefault readScalarDefault
  rw [if_neg hempty]
  exact (if_neg hsequence).trans (if_neg hnull)

/-- The types for which an expression has to denote a value of theirs. -/
def IsChecked (name : String) : Prop :=
  name ∈ integerNames ∨ name ∈ realNames ∨ name ∈ documentNames

theorem isChecked_of_readConstant?_eq_none {text : String}
    (h : readConstant? name text = none) : IsChecked name := by
  by_contra hname
  simp only [IsChecked, not_or] at hname
  unfold readConstant? at h
  simp only [List.contains_iff_mem, hname, if_false] at h
  split at h <;> cases h

theorem readConstant?_of_document (hname : name ∈ documentNames) (text : String) :
    readConstant? name text = Json.read? text := by
  obtain ⟨hwhole, hreal⟩ := documentNames_apart name hname
  have hboolean := documentNames_apart_booleanNames name hname
  unfold readConstant?
  simp [hwhole, hreal, hboolean, hname]

/-- Every expression denotes no default, or has a value, or is refused.  For a type of
numbers it has a value only if it is a constant or a number with an unchecked cast;
for a type of documents exactly if its text is a document; and a type of another kind
refuses nothing. -/
theorem ColumnType.default?_constant (name raw : String) :
    let result := (scalar name).default? (some raw)
    (result = .ok none ↔ NoDefault name raw) ∧
    (∀ e, result = .error e → e = .invalidDefault name raw ∧ IsChecked name) ∧
    (name ∈ integerNames ∨ name ∈ realNames → ∀ v, result = .ok (some v) →
      ConstantExpression raw ∨ UncheckedCast raw) ∧
    (name ∈ documentNames → ∀ v, result = .ok (some v) ↔
      ¬NoDefault name raw ∧ Json.read? (uncast raw) = some v) := by
  intro result
  by_cases hdefault : NoDefault name raw
  · have hresult : result = .ok none := default?_of_noDefault hdefault
    simp [hresult, hdefault]
  have hresult : result = _ := default?_of_not_noDefault hdefault
  cases hconstant : readConstant? name (uncast raw) with
  | none =>
    rw [hconstant] at hresult
    have hchecked := isChecked_of_readConstant?_eq_none hconstant
    have hdocument (hname : name ∈ documentNames) : Json.read? (uncast raw) = none := by
      rw [← readConstant?_of_document hname, hconstant]
    simp +contextual [hresult, hdefault, hchecked, hdocument, eq_comm]
  | some v =>
    rw [hconstant] at hresult
    have hnumber (hname : name ∈ integerNames ∨ name ∈ realNames) :
        ConstantExpression raw ∨ UncheckedCast raw :=
      (isNumber_of_readConstant? hname hconstant).of_uncast
    have hdocument (hname : name ∈ documentNames) : Json.read? (uncast raw) = some v := by
      rw [← readConstant?_of_document hname, hconstant]
    refine ⟨by simp [hresult, hdefault], by simp [hresult], fun hname _ _ => hnumber hname,
      fun hname w => ?_⟩
    simp [hresult, hdefault, hdocument hname]

end Scalar

/-- A quoted number is read, and what is computed at random is refused. -/
theorem ColumnType.default?_constant_whole :
    let t : ColumnType := .scalar "int4"
    (ConstantExpression "'-7'::integer" ∧
      t.default? (some "'-7'::integer") = .ok (some (.int (-7)))) ∧
    (¬ConstantExpression "random()" ∧
      t.default? (some "random()") = .error (.invalidDefault "int4" "random()")) := by
  intro t
  have hquoted : "'-7'::integer" = Sql.literal "-7" ++ "::" ++ "integer" := by decide
  have hconstant : ConstantExpression "'-7'::integer" := by
    rw [hquoted]
    exact .cast _ (namesType_of_readsAs [.word "integer"] (by decide +kernel))
  refine ⟨⟨hconstant, rfl⟩, fun h => absurd (h.begins rfl) (by decide), ?_⟩
  obtain ⟨hnone, herror, hnumber, -⟩ := ColumnType.default?_constant "int4" "random()"
  cases hresult : t.default? (some "random()") with
  | error e => rw [(herror e hresult).1]
  | ok value =>
    cases value with
    | none =>
      have hdefault := noDefault_iff.1 (hnone.1 hresult)
      exact absurd hdefault (by decide)
    | some v =>
      have hbegins : BeginsConstant 'r' :=
        (hnumber (.inl (by decide)) v hresult).elim (·.begins rfl) (·.begins rfl)
      exact absurd hbegins (by decide)

/-- A call is taken for the constant false, and every standard type takes a sum for the
constant in it. -/
theorem ColumnType.computed_defaults_kept :
    (¬ConstantExpression "is_open()" ∧
      (scalar "boolean").default? (some "is_open()") = .ok (some (.bool false))) ∧
    (¬ConstantExpression "'42'::int4 + 1" ∧
      (scalar "int4").default? (some "'42'::int4 + 1") = .ok (some (.int 42)) ∧
      ∀ name ∈ TypePolicy.standard.types.keys,
        ∃ v, (scalar name).default? (some "'42'::int4 + 1") = .ok (some v)) := by
  have hsum : "'42'::int4 + 1" = Sql.literal "42" ++ "::" ++ "int4 + 1" := by decide
  have hkept : ∀ name ∈ TypePolicy.standard.types.keys,
      ((scalar name).default? (some "'42'::int4 + 1")).toOption.join.isSome := by
    decide +kernel
  refine ⟨⟨fun h => absurd (h.begins rfl) (by decide), rfl⟩, ?_, rfl, fun name hname => ?_⟩
  · rw [hsum, constantExpression_cast_iff]
    rintro ⟨tokens, htokens, htype, -⟩
    have hread : Sql.Token.ofText? "int4 + 1" =
        some [.word "int4", .mark "+", .number "1" false] := by decide +kernel
    obtain rfl := Option.some.inj (hread.symm.trans htokens)
    exact absurd htype (by decide +kernel)
  · obtain ⟨v, hv⟩ := Option.isSome_iff_exists.1 (hkept name hname)
    exact ⟨v, toOption_eq_some_iff.1 (Option.join_eq_some_iff.1 hv)⟩

end GovernedCatalog
