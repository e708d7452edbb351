import GovernedCatalog.Proofs.ColumnType.Rewriting
import GovernedCatalog.Proofs.Text.Pieces
import GovernedCatalog.Settings.Basic

/-!
# Constants that are read back

The constants of an array are read between its commas, the last one with the
bracket and the name of the type behind it.  A text in quotes keeps apart from
these, and nothing else does.  So the values are known whose constants are read
as values with the same constants.
-/

namespace GovernedCatalog

/-! ## The types of a policy -/

/-- A scalar with such a name, or an array of arrays of one. -/
inductive ColumnType.BuiltFrom (Named : String → Prop) : ColumnType → Prop where
  | scalar {name : String} (hname : Named name) : BuiltFrom Named (.scalar name)
  | array {base : ColumnType} (h : BuiltFrom Named base) : BuiltFrom Named (.array base)

/-- The name has no mark that the reader of constants looks for. -/
def PlainName (name : String) : Prop :=
  name.toList ≠ [] ∧
    ∀ c ∈ name.toList, c ∉ ['\'', '(', ')', ','] ∧ Text.isBlank c = false

instance (name : String) : Decidable (PlainName name) :=
  decidable_of_iff (name.toList ≠ [] ∧ name.toList.all
      (fun c => !(['\'', '(', ')', ','].contains c || Text.isBlank c)) = true) <| by
    simp [PlainName]

theorem standard_plainName :
    ∀ name ∈ TypePolicy.standard.types.keys, PlainName name := by decide +kernel

namespace ColumnType

theorem BuiltFrom.mono {Named Named' : String → Prop} {t : ColumnType}
    (h : t.BuiltFrom Named) (hnamed : ∀ name, Named name → Named' name) :
    t.BuiltFrom Named' := by
  induction h with
  | scalar hname => exact .scalar (hnamed _ hname)
  | array _ ih => exact .array ih

variable {t base : ColumnType} {v : Json} {constant : String}

/-- The characters of such a type's name. -/
theorem BuiltFrom.plain_of_mem_name (ht : t.BuiltFrom PlainName) {c : Char}
    (hc : c ∈ t.name.toList) : c ∉ ['\'', '(', ')', ','] ∧ Text.isBlank c = false := by
  induction ht with
  | scalar hname => exact hname.2 c hc
  | array _ ih =>
    rw [name, String.toList_append] at hc
    rcases List.mem_append.1 hc with hc | hc
    · exact ih hc
    · have hbrackets : PlainName "[]" := by decide +kernel
      exact hbrackets.2 c hc

/-! ## Constants of arrays -/

/-- What follows the constants of an array up to the last bracket. -/
def closing (base : ColumnType) : String := "]::" ++ base.name ++ "["

/-- The array of constants that are written one after the other. -/
def arrayOf (base : ColumnType) (joined : String) : String :=
  "ARRAY[" ++ joined ++ "]::" ++ (array base).sql

theorem arrayOf_inj {joined joined' : String} :
    base.arrayOf joined = base.arrayOf joined' ↔ joined = joined' := by
  constructor
  · intro h
    have htext := congrArg String.toList h
    exact String.toList_inj.1 (by simpa [arrayOf] using htext)
  · rintro rfl
    rfl

theorem toList_arrayOf (base : ColumnType) (joined : String) :
    (base.arrayOf joined).toList =
      "ARRAY[".toList ++ ((joined ++ base.closing).toList ++ [']']) := by
  simp [arrayOf, closing, sql, name]

theorem arrayItems?_arrayOf (base : ColumnType) (joined : String) :
    arrayItems? (base.arrayOf joined) =
      some (Text.listed (joined ++ base.closing).toList) := by
  unfold arrayItems? Text.stripStart Text.stripLast
  rw [toList_arrayOf]
  simp [Text.listed, -String.toList_append]

theorem array_literal_eq_ok :
    (array base).literal v = .ok constant ↔
      ∃ items constants, v = .arr items ∧ items.mapM base.literal = .ok constants ∧
        base.arrayOf (Text.join ", " constants) = constant := by
  unfold literal
  cases v <;> simp [bind_eq_ok, arrayOf, pure, Except.pure]

theorem array_readDefault_arrayOf {joined : String} {v? : Option Json} :
    (array base).readDefault (base.arrayOf joined) = .ok v? ↔
      ∃ values, (Text.listed (joined ++ base.closing).toList).mapM base.readDefault =
        .ok values ∧ v? = some (.arr (values.map Json.ofOption)) := by
  have hempty : (base.arrayOf joined).isEmpty = false := by
    rw [← Bool.not_eq_true, String.isEmpty_iff, ← String.toList_inj, toList_arrayOf]
    simp
  rw [readDefault.eq_def]
  simp only [hempty, arrayItems?_arrayOf, Bool.false_eq_true, if_false]
  rw [bind_eq_ok]
  refine exists_congr fun values => and_congr_right fun _ => ?_
  exact ⟨fun h => (Except.ok.inj h).symm, fun h => congrArg Except.ok h.symm⟩

/-- An array is recovered exactly if its texts are written again. -/
theorem array_recovered_iff {joined : String} :
    (∃ w, (array base).default? (some (base.arrayOf joined)) = .ok (some w) ∧
      (array base).literal w = .ok (base.arrayOf joined)) ↔
    ∃ constants, (Text.listed (joined ++ base.closing).toList).mapM base.rewritten =
      .ok constants ∧ Text.join ", " constants = joined := by
  have hrewritten : base.rewritten = fun raw =>
      base.readDefault raw >>= fun v? => base.literal (Json.ofOption v?) := rfl
  simp only [default?, array_readDefault_arrayOf, array_literal_eq_ok, arrayOf_inj,
    hrewritten, mapM_bind_eq_ok]
  constructor
  · rintro ⟨w, ⟨values, hread, hw⟩, items, constants, hitems, hwrite, hjoined⟩
    cases hw
    cases hitems
    refine ⟨constants, ⟨values, hread, ?_⟩, hjoined⟩
    rwa [List.mapM_map] at hwrite
  · rintro ⟨constants, ⟨values, hread, hwrite⟩, hjoined⟩
    refine ⟨_, ⟨values, hread, rfl⟩, _, constants, rfl, ?_, hjoined⟩
    rwa [List.mapM_map]

/-! ## The last constant -/

theorem arrayItems?_of_bracket {raw : String} (hlast : raw.toList.getLast? = some '[') :
    arrayItems? raw = none := by
  have hend (n : Nat) : Text.stripLast ']' (raw.toList.drop n) = none := by
    by_cases hn : raw.toList.length ≤ n <;>
      simp [Text.stripLast, List.getLast?_drop, hlast, hn]
  unfold arrayItems? Text.stripStart
  split
  · rw [Option.bind_some, hend]
    rfl
  · rfl

/-- Between the brackets of an array type there is no array. -/
theorem not_listed_of_brackets (t : ColumnType) {raw : String}
    (hfirst : raw.toList.head? = some 'A') (hlast : raw.toList.getLast? = some '[')
    {v? : Option Json} (h : t.readDefault raw = .ok v?) (items : List Json) :
    Json.ofOption v? ≠ .arr items := by
  have hempty : raw.isEmpty = false := by
    rw [← Bool.not_eq_true, String.isEmpty_iff, ← String.toList_inj]
    rintro hnil
    rw [hnil] at hfirst
    cases hfirst
  induction t with
  | scalar name =>
    rw [scalar_readDefault (by rintro hnil; rw [hnil] at hfirst; cases hfirst)] at h
    obtain rfl | ⟨v, rfl, hv⟩ := readScalarDefault_eq_ok h
    · rintro ⟨⟩
    rintro rfl
    have huncast : uncast raw = raw := uncast_of_head fun c hc => by
      cases hfirst.symm.trans hc
      decide
    rw [huncast] at hv
    cases readConstant?_constantOf hv with
    | document hname =>
      obtain ⟨hwhole, -, hreal⟩ := documentNames_apart name hname
      have hboolean := documentNames_apart_booleanNames name hname
      simp [readConstant?, hwhole, hreal, hboolean, hname,
        Json.read?_capital hfirst] at hv
  | domain _ base ih =>
    rw [readDefault.eq_def] at h
    simp only [hempty, Bool.false_eq_true, if_false] at h
    exact ih h
  | array base ih =>
    have hitems := arrayItems?_of_bracket hlast
    rw [readDefault.eq_def] at h
    simp only [hempty, hitems, Bool.false_eq_true, if_false] at h
    exact ih h

theorem quoted_isTrimmed {name : String} (hname : PlainName name) (text : String) :
    Text.IsTrimmed (Sql.literal text ++ "::" ++ name).toList := by
  obtain ⟨hne, hplain⟩ := hname
  have hopen : Text.IsTrimmed ['\''] := ⟨'\'', '\'', rfl, rfl, rfl, rfl⟩
  have hlast := List.getLast?_eq_some_getLast hne
  rw [toList_quoted]
  refine hopen.append (?_ : _ = some (name.toList.getLast hne))
    (hplain _ (List.getLast_mem hne)).2
  simp [List.getLast?_append, List.getLast?_cons, hlast]

theorem BuiltFrom.literal_isTrimmed (ht : t.BuiltFrom PlainName)
    (h : t.literal v = .ok constant) : Text.IsTrimmed constant.toList := by
  cases ht with
  | @scalar name hname =>
    rw [scalar_literal_eq_ok] at h
    have hconstant := scalarConstant_of_constantText? h
    by_cases hquotes : InQuotes name
    · rw [constantText?_of_inQuotes hquotes] at h
      obtain ⟨text, -, rfl⟩ := Option.map_eq_some_iff.1 h
      exact quoted_isTrimmed hname text
    · obtain ⟨hne, hnumeric⟩ := hconstant.numeric hquotes
      exact .of_forall hne fun c hc => (hnumeric c hc).plain.1
  | array hbase =>
    obtain ⟨_, _, -, -, rfl⟩ := array_literal_eq_ok.1 h
    rw [toList_arrayOf]
    have hopen : Text.IsTrimmed "ARRAY[".toList := ⟨'A', '[', rfl, rfl, rfl, rfl⟩
    refine hopen.append (?_ : _ = some ']') rfl
    simp [-String.toList_append]

theorem BuiltFrom.of_mem_closing (ht : base.BuiltFrom PlainName) {c : Char}
    (hc : c ∈ base.closing.toList) : c ∉ ['\'', '(', ')', ','] := by
  rw [closing, String.toList_append, String.toList_append] at hc
  have hmark : PlainName "]::" ∧ PlainName "[" := by decide +kernel
  rcases List.mem_append.1 hc with hc | hc
  · rcases List.mem_append.1 hc with hc | hc
    · exact (hmark.1.2 c hc).1
    · exact (ht.plain_of_mem_name hc).1
  · exact (hmark.2.2 c hc).1

theorem getLast?_closing (base : ColumnType) :
    base.closing.toList.getLast? = some '[' := by
  simp [closing, List.getLast?_cons]

theorem rewritten_eq_ok {raw : String} :
    t.rewritten raw = .ok constant ↔
      ∃ v?, t.readDefault raw = .ok v? ∧ t.literal (Json.ofOption v?) = .ok constant :=
  bind_eq_ok

/-- An array's text is written again exactly if the constants have no commas,
and each of them is written again, the last one with what follows it. -/
theorem BuiltFrom.array_recovered_iff (ht : base.BuiltFrom PlainName) {joined : String} :
    (∃ w, base.array.default? (some (base.arrayOf joined)) = .ok (some w) ∧
      base.array.literal w = .ok (base.arrayOf joined)) ↔
    ∃ init last, Text.join ", " (init ++ [last]) = joined ∧
      (∀ c ∈ init ++ [last], Text.IsListed c) ∧
      (∀ c ∈ init, base.rewritten c = .ok c) ∧
      base.rewritten (last ++ base.closing) = .ok last := by
  have hcomma : ',' ∉ base.closing.toList := fun h => ht.of_mem_closing h (by decide)
  have hlisted {init : List String} {last : String}
      (h : ∀ c ∈ init ++ [last], Text.IsListed c) :
      Text.listed (Text.join ", " (init ++ [last]) ++ base.closing).toList =
        init ++ [last ++ base.closing] := by
    obtain ⟨hinit, hlast⟩ := List.forall_mem_append.1 h
    obtain ⟨htrimmed, hunbroken⟩ := hlast last List.mem_cons_self
    refine Text.listed_join hinit ⟨?_, ?_⟩
    · rw [String.toList_append]
      exact htrimmed.append (getLast?_closing base) rfl
    · rw [String.toList_append, List.mem_append, not_or]
      exact ⟨hunbroken, hcomma⟩
  rw [ColumnType.array_recovered_iff]
  constructor
  · rintro ⟨constants, hrewritten, rfl⟩
    have hlength : constants.length =
        (Text.join ", " constants).toList.count ',' + 1 := by
      rw [length_of_mapM hrewritten, Text.length_listed, String.toList_append,
        List.count_append, List.count_eq_zero.2 hcomma, Nat.add_zero]
    have hconstants : ∀ c ∈ constants, Text.IsListed c := by
      intro c hc
      obtain ⟨raw, -, hraw⟩ := (mem_mapM_iff hrewritten).1 hc
      obtain ⟨v?, -, hwrite⟩ := rewritten_eq_ok.1 hraw
      exact ⟨ht.literal_isTrimmed hwrite, Text.unbroken_of_length hlength c hc⟩
    obtain rfl | ⟨init, last, rfl⟩ := List.eq_nil_or_concat' constants
    · cases hlength
    rw [hlisted hconstants, mapM_concat_eq_ok, mapM_eq_ok_self_iff] at hrewritten
    exact ⟨init, last, rfl, hconstants, hrewritten⟩
  · rintro ⟨init, last, rfl, hconstants, hrewritten⟩
    refine ⟨init ++ [last], ?_, rfl⟩
    rwa [hlisted hconstants, mapM_concat_eq_ok, mapM_eq_ok_self_iff]

/-- Only texts in quotes are told from the brackets behind the last of them. -/
theorem BuiltFrom.inQuotes_of_last (ht : base.BuiltFrom PlainName) {last : String}
    (h : base.rewritten (last ++ base.closing) = .ok last) :
    ∃ name, base = .scalar name ∧ InQuotes name := by
  have hlastChar : (last ++ base.closing).toList.getLast? = some '[' := by
    rw [String.toList_append, List.getLast?_append, getLast?_closing, Option.some_or]
  obtain ⟨v?, hread, hwrite⟩ := rewritten_eq_ok.1 h
  cases ht with
  | @scalar name _ =>
    refine ⟨name, rfl, ?_⟩
    by_contra hname
    rw [scalar_literal_eq_ok] at hwrite
    obtain ⟨hne, hnumeric⟩ := (scalarConstant_of_constantText? hwrite).numeric hname
    obtain ⟨c, rest, hlast⟩ := List.exists_cons_of_ne_nil hne
    have hhead (c' : Char) (hc' : (last ++ closing (.scalar name)).toList.head? = some c') :
        c' ≠ '\'' ∧ c' ≠ '(' := by
      rw [String.toList_append, hlast] at hc'
      cases hc'
      exact (hnumeric c (hlast ▸ List.mem_cons_self)).plain.2
    have hbracket := List.mem_of_getLast? hlastChar
    rw [scalar_readDefault (List.ne_nil_of_mem hbracket)] at hread
    rw [constantText?_of_bracket hname hbracket hhead hread] at hwrite
    cases hwrite
  | array _ =>
    obtain ⟨items, _, hitems, -, rfl⟩ := array_literal_eq_ok.1 hwrite
    refine absurd hitems (not_listed_of_brackets _ ?_ hlastChar hread items)
    rw [String.toList_append, toList_arrayOf]
    rfl

end ColumnType

/-! ## What is recovered -/

/-- The values whose constant is read as a value with the same constant. -/
inductive Recoverable : ColumnType → Json → Prop where
  | whole {name : String} {v : Json}
      (hname : name ∈ integerNames ∨ name ∈ serialNames) : Recoverable (.scalar name) v
  | real {name : String} {v : Json} {x : Float} (hname : name ∈ realNames)
      (hv : realNumber? v = some x) (hx : x.isFinite = true) :
      Recoverable (.scalar name) v
  | quoted {name : String} {v : Json} {text : String} (hname : InQuotes name)
      (hv : quotedText? name v = some text) (htext : KeepsText name text) :
      Recoverable (.scalar name) v
  /-- Commas end an item, and only texts in quotes are told from the brackets
  behind the last of them. -/
  | array {name : String} {items : List Json} (hname : InQuotes name)
      (hne : items ≠ [])
      (hitems : ∀ item ∈ items, ∃ text, quotedText? name item = some text ∧
        KeepsText name text ∧ ',' ∉ text.toList) :
      Recoverable (.array (.scalar name)) (.arr items)

/-- The constant is read as a value that is written the same. -/
def ColumnType.Recovers (t : ColumnType) (constant : String) : Prop :=
  ∃ w, t.default? (some constant) = .ok (some w) ∧ t.literal w = .ok constant

section Recovered

variable {name : String} {t : ColumnType} {v : Json} {constant : String}

/-- What a constant in quotes is recovered for. -/
theorem recoverable_iff_keepsText {text : String} (hname : InQuotes name)
    (hv : quotedText? name v = some text) :
    Recoverable (.scalar name) v ↔ KeepsText name text := by
  constructor
  · intro h
    cases h with
    | whole hname' => exact absurd hname' (not_or.2 ⟨hname.1, hname.2.1⟩)
    | real hname' => exact absurd hname' hname.2.2
    | quoted _ hv' htext =>
      rw [hv, Option.some.injEq] at hv'
      exact hv' ▸ htext
  · exact .quoted hname hv

/-- What the constant of a number is recovered for. -/
theorem recoverable_iff_isFinite {x : Float} (hname : name ∈ realNames)
    (hv : realNumber? v = some x) :
    Recoverable (.scalar name) v ↔ x.isFinite = true := by
  constructor
  · intro h
    cases h with
    | whole hname' => exact absurd hname' (not_or.2 (realNames_apart name hname))
    | real _ hv' hx =>
      rw [hv, Option.some.injEq] at hv'
      exact hv' ▸ hx
    | quoted hname' => exact absurd hname hname'.2.2
  · exact .real hname hv

/-- Documents without fractions are recovered, unless they nest too deep. -/
theorem Recoverable.document (hname : name ∈ documentNames) (hcanonical : v.IsCanonical)
    (h : v.Readable Json.maxDepth) : Recoverable (.scalar name) v := by
  have hwritten : quotedText? name v = some v.write := by simp [quotedText?, hname]
  refine .quoted (documentNames_apart name hname) hwritten ?_
  rw [KeepsText, if_neg (documentNames_apart_booleanNames name hname), if_pos hname]
  exact ⟨v, Json.read?_write hcanonical h, rfl⟩

theorem PlainName.unclosing (h : PlainName name) : Unclosing name.toList := by
  intro c hc
  have hplain := (h.2 c hc).1
  simp only [List.mem_cons, not_or] at hplain
  exact ⟨hplain.1, hplain.2.2.1⟩

theorem scalar_recovers_iff (hplain : PlainName name)
    (h : (ColumnType.scalar name).literal v = .ok constant) :
    (ColumnType.scalar name).Recovers constant ↔ Recoverable (.scalar name) v := by
  unfold ColumnType.Recovers
  cases scalarConstant_of_constantText? (scalar_literal_eq_ok.1 h) with
  | @whole hname n hv =>
    rw [(IsNumberText.int n).isPlain.scalar_recovered]
    exact iff_of_true (whole_rewritten hname (wholeNumber?_fits hv)) (.whole hname)
  | @real hname x hv =>
    rw [recoverable_iff_isFinite hname hv]
    cases hx : x.isFinite with
    | true =>
      rw [(IsNumberText.real hx).isPlain.scalar_recovered]
      exact iff_of_true (real_rewritten hname hx) rfl
    | false =>
      refine iff_of_false (fun ⟨w, hread, _⟩ => ?_) Bool.false_ne_true
      have hnamed := realNames_unnamed name hname _
        (Decimal.Layout.write_of_not_isFinite Decimal.constantLayout hx)
      rw [ColumnType.default?, scalar_readDefault (Decimal.Layout.write_ne_nil _ x)] at hread
      obtain h | ⟨v, -, hv⟩ := readScalarDefault_eq_ok hread
      · cases h
      · rw [hnamed] at hv
        cases hv
  | @quoted hname text hv =>
    rw [(quoted_isPlain text name).scalar_recovered,
      quoted_rewritten_iff hname hplain.unclosing, recoverable_iff_keepsText hname hv]

/-! ### Arrays -/

/-- The constant of an item that is recovered from an array. -/
def KeepsItem (name constant : String) : Prop :=
  ∃ text, constant = Sql.literal text ++ "::" ++ name ∧ KeepsText name text ∧
    ',' ∉ text.toList

theorem quoted_of_literal (hname : InQuotes name)
    (h : (ColumnType.scalar name).literal v = .ok constant) :
    ∃ text, constant = Sql.literal text ++ "::" ++ name ∧
      quotedText? name v = some text := by
  rw [scalar_literal_eq_ok, constantText?_of_inQuotes hname] at h
  obtain ⟨text, htext, rfl⟩ := Option.map_eq_some_iff.1 h
  exact ⟨text, rfl, htext⟩

theorem keepsItem_iff (hname : InQuotes name) {items : List Json}
    {constants : List String}
    (h : items.mapM (ColumnType.scalar name).literal = .ok constants) :
    (∀ c ∈ constants, KeepsItem name c) ↔
      ∀ item ∈ items, ∃ text, quotedText? name item = some text ∧
        KeepsText name text ∧ ',' ∉ text.toList := by
  constructor
  · intro hkeeps item hitem
    obtain ⟨c, hc⟩ := mapM_ok_iff.1 ⟨constants, h⟩ item hitem
    obtain ⟨text, rfl, htext⟩ := hkeeps c ((mem_mapM_iff h).2 ⟨item, hitem, hc⟩)
    rw [scalar_literal_eq_ok, constantText?_eq_quoted hname] at hc
    exact ⟨text, hc, htext⟩
  · intro hkeeps c hc
    obtain ⟨item, hitem, hc⟩ := (mem_mapM_iff h).1 hc
    obtain ⟨text, hquoted, htext⟩ := hkeeps item hitem
    rw [scalar_literal_eq_ok, (constantText?_eq_quoted hname).2 hquoted] at hc
    exact ⟨text, (Option.some.inj hc).symm, htext⟩

/-- Lists of quoted constants are told apart when they are joined. -/
theorem join_quoted_inj {constants constants' : List String}
    (h : ∀ c ∈ constants, ∃ text, c = Sql.literal text ++ "::" ++ name)
    (h' : ∀ c ∈ constants', ∃ text, c = Sql.literal text ++ "::" ++ name)
    (hjoin : Text.join ", " constants = Text.join ", " constants') :
    constants = constants' := by
  have hjoined (text : String) (rest : List String) :
      Text.join ", " ((Sql.literal text ++ "::" ++ name) :: rest) =
        Sql.literal text ++ "::" ++
          (name ++ if rest = [] then "" else ", " ++ Text.join ", " rest) := by
    split
    · next hrest => simp [hrest, Text.join]
    · next hrest => simp [Text.join_cons_of_ne_nil _ _ hrest, String.append_assoc]
  have hne (text : String) (rest : List String) :
      Text.join ", " ((Sql.literal text ++ "::" ++ name) :: rest) ≠ "" := by
    rw [hjoined, ← String.toList_inj.ne, toList_quoted]
    exact List.cons_ne_nil _ _
  induction constants generalizing constants' with
  | nil =>
    cases constants' with
    | nil => rfl
    | cons c' rest' =>
      obtain ⟨text', rfl⟩ := h' c' List.mem_cons_self
      exact absurd hjoin.symm (hne text' rest')
  | cons c rest ih =>
    obtain ⟨⟨text, rfl⟩, hrest⟩ := List.forall_mem_cons.1 h
    cases constants' with
    | nil => exact absurd hjoin (hne text rest)
    | cons c' rest' =>
      obtain ⟨⟨text', rfl⟩, hrest'⟩ := List.forall_mem_cons.1 h'
      rw [hjoined, hjoined] at hjoin
      obtain ⟨rfl, htail⟩ := quoted_inj.1 hjoin
      have htail := congrArg String.toList htail
      simp only [String.toList_append, List.append_cancel_left_eq, String.toList_inj]
        at htail
      by_cases hnil : rest = [] <;> by_cases hnil' : rest' = []
      · rw [hnil, hnil']
      · rw [if_pos hnil, if_neg hnil'] at htail
        have htail := congrArg String.toList htail
        simp at htail
      · rw [if_neg hnil, if_pos hnil'] at htail
        have htail := congrArg String.toList htail
        simp at htail
      · rw [if_neg hnil, if_neg hnil'] at htail
        have htail := congrArg String.toList htail
        rw [String.toList_append, String.toList_append, List.append_cancel_left_eq,
          String.toList_inj] at htail
        rw [ih hrest hrest' htail]

theorem KeepsItem.isListed (hplain : PlainName name) (h : KeepsItem name constant) :
    Text.IsListed constant := by
  obtain ⟨text, rfl, -, hcomma⟩ := h
  refine ⟨ColumnType.quoted_isTrimmed hplain text, fun hmem => ?_⟩
  have hname : ',' ∉ name.toList := fun hmem => (hplain.2 _ hmem).1 (by decide)
  rw [toList_quoted] at hmem
  simp [Text.mem_double, hcomma, hname] at hmem

theorem quoted_of_rewritten (hname : InQuotes name) {raw : String}
    (h : (ColumnType.scalar name).rewritten raw = .ok constant) :
    ∃ text, constant = Sql.literal text ++ "::" ++ name := by
  obtain ⟨v?, -, hwrite⟩ := ColumnType.rewritten_eq_ok.1 h
  obtain ⟨text, hconstant, -⟩ := quoted_of_literal hname hwrite
  exact ⟨text, hconstant⟩

/-- Behind the last item there is nothing that closes one. -/
theorem last_rewritten_iff (hplain : PlainName name) (hname : InQuotes name)
    (text : String) :
    (ColumnType.scalar name).rewritten
        (Sql.literal text ++ "::" ++ name ++ (ColumnType.scalar name).closing) =
      .ok (Sql.literal text ++ "::" ++ name) ↔ KeepsText name text := by
  have htail : Unclosing (name ++ (ColumnType.scalar name).closing).toList := by
    intro c hc
    rw [String.toList_append] at hc
    rcases List.mem_append.1 hc with hc | hc
    · exact hplain.unclosing c hc
    · have hclosing := (ColumnType.BuiltFrom.scalar hplain).of_mem_closing hc
      simp only [List.mem_cons, not_or] at hclosing
      exact ⟨hclosing.1, hclosing.2.2.1⟩
  rw [String.append_assoc]
  exact quoted_rewritten_iff hname htail

/-- An array of texts in quotes is recovered if there are any and each of them
is kept. -/
theorem list_recovers_iff (hplain : PlainName name) (hname : InQuotes name)
    {items : List Json} {constants : List String}
    (h : items.mapM (ColumnType.scalar name).literal = .ok constants) :
    (ColumnType.scalar name).array.Recovers
        ((ColumnType.scalar name).arrayOf (Text.join ", " constants)) ↔
      constants ≠ [] ∧ ∀ c ∈ constants, KeepsItem name c := by
  have hquoted (c : String) (hc : c ∈ constants) :
      ∃ text, c = Sql.literal text ++ "::" ++ name := by
    obtain ⟨item, -, hitem⟩ := (mem_mapM_iff h).1 hc
    obtain ⟨text, hc, -⟩ := quoted_of_literal hname hitem
    exact ⟨text, hc⟩
  unfold ColumnType.Recovers
  rw [(ColumnType.BuiltFrom.scalar hplain).array_recovered_iff]
  constructor
  · rintro ⟨init, last, hjoin, hlisted, hinit, hlast⟩
    have hwritten (c : String) (hc : c ∈ init ++ [last]) :
        ∃ text, c = Sql.literal text ++ "::" ++ name ∧ KeepsText name text := by
      rcases List.mem_append.1 hc with hc | hc
      · obtain ⟨text, rfl⟩ := quoted_of_rewritten hname (hinit c hc)
        exact ⟨text, rfl, (quoted_rewritten_iff hname hplain.unclosing).1 (hinit _ hc)⟩
      · rw [List.mem_singleton.1 hc]
        obtain ⟨text, rfl⟩ := quoted_of_rewritten hname hlast
        exact ⟨text, rfl, (last_rewritten_iff hplain hname text).1 hlast⟩
    obtain rfl : constants = init ++ [last] := join_quoted_inj hquoted
      (fun c hc => (hwritten c hc).imp fun _ => And.left) hjoin.symm
    refine ⟨by simp, fun c hc => ?_⟩
    obtain ⟨text, rfl, htext⟩ := hwritten c hc
    refine ⟨text, rfl, htext, fun hcomma => (hlisted _ hc).unbroken ?_⟩
    rw [toList_quoted]
    simp [Text.mem_double, hcomma]
  · rintro ⟨hne, hkeeps⟩
    obtain rfl | ⟨init, last, rfl⟩ := List.eq_nil_or_concat' constants
    · exact absurd rfl hne
    obtain ⟨hinit, hlast⟩ := List.forall_mem_append.1 hkeeps
    refine ⟨init, last, rfl, fun c hc => (hkeeps c hc).isListed hplain, ?_, ?_⟩
    · intro c hc
      obtain ⟨text, rfl, htext, -⟩ := hinit c hc
      exact (quoted_rewritten_iff hname hplain.unclosing).2 htext
    · obtain ⟨text, rfl, htext, -⟩ := hlast last List.mem_cons_self
      exact (last_rewritten_iff hplain hname text).2 htext

theorem ColumnType.BuiltFrom.recovers_iff (ht : t.BuiltFrom PlainName)
    (h : t.literal v = .ok constant) :
    t.Recovers constant ↔ Recoverable t v := by
  cases ht with
  | scalar hplain => exact scalar_recovers_iff hplain h
  | @array base hbase =>
    obtain ⟨items, constants, rfl, hconstants, rfl⟩ :=
      ColumnType.array_literal_eq_ok.1 h
    by_cases hquotes : ∃ name, base = .scalar name ∧ InQuotes name
    · obtain ⟨name, rfl, hname⟩ := hquotes
      have hplain : PlainName name := by
        cases hbase
        assumption
      rw [list_recovers_iff hplain hname hconstants, keepsItem_iff hname hconstants]
      have hne : constants ≠ [] ↔ items ≠ [] := by
        rw [← List.length_pos_iff, ← List.length_pos_iff, length_of_mapM hconstants]
      rw [hne]
      constructor
      · exact fun ⟨hne, hitems⟩ => .array hname hne hitems
      · rintro ⟨⟩
        constructor <;> assumption
    · refine iff_of_false (fun hrecovers => hquotes ?_) fun hrecoverable => hquotes ?_
      · obtain ⟨_, _, _, _, _, hlast⟩ := hbase.array_recovered_iff.1 hrecovers
        exact hbase.inQuotes_of_last hlast
      · cases hrecoverable with
        | array hname => exact ⟨_, rfl, hname⟩

end Recovered

/-- The standard policy names the type, or what it is an array of. -/
def ColumnType.IsStandard : ColumnType → Prop :=
  BuiltFrom fun name => name ∈ TypePolicy.standard.types.keys

theorem ColumnType.IsStandard.builtFrom {t : ColumnType} (ht : t.IsStandard) :
    t.BuiltFrom PlainName :=
  ht.mono standard_plainName

/-- Of the constants that are written for the types of the standard policy,
exactly those of recoverable values are read as values with the same constant. -/
theorem ColumnType.constant_recovered_iff {t : ColumnType} (ht : t.IsStandard) {v : Json}
    {constant : String} (h : t.literal v = .ok constant) :
    (∃ w, t.default? (some constant) = .ok (some w) ∧ t.literal w = .ok constant) ↔
      Recoverable t v :=
  ht.builtFrom.recovers_iff h

/-- Quotes, a parenthesis and what looks like a cast stay in an array of texts. -/
theorem constant_recovered_iff_titles :
    let t : ColumnType := .array .text
    let titles := Json.strings ["it's", "(a)::b"]
    let constant := "ARRAY['it''s'::text, '(a)::b'::text]::text[]"
    t.IsStandard ∧ t.literal titles = .ok constant ∧
      ∃ w, t.default? (some constant) = .ok (some w) ∧ t.literal w = .ok constant := by
  intro t titles constant
  have ht : t.IsStandard := .array (.scalar (by decide +kernel))
  have hwritten : t.literal titles = .ok constant :=
    toOption_eq_some_iff.1 (by decide +kernel)
  have hname : InQuotes "text" := by decide
  refine ⟨ht, hwritten, (ColumnType.constant_recovered_iff ht hwritten).2 ?_⟩
  refine .array hname (by simp) fun item hitem => ?_
  obtain ⟨title, htitle, rfl⟩ := List.mem_map.1 hitem
  have hplain : ∀ title ∈ ["it's", "(a)::b"],
      '\n' ∉ title.toList ∧ ',' ∉ title.toList := by decide +kernel
  obtain ⟨hline, hcomma⟩ := hplain title htitle
  exact ⟨title, rfl, (keepsText_iff_line (by decide) (by decide)).2 hline, hcomma⟩

/-- No array of numbers is recovered: the bracket is read with the last one. -/
theorem numbers_not_recovered :
    let t : ColumnType := .array (.scalar "int4")
    let constant := "ARRAY[1, 2]::int4[]"
    t.IsStandard ∧ t.literal (.arr [.int 1, .int 2]) = .ok constant ∧
      ¬∃ w, t.default? (some constant) = .ok (some w) ∧ t.literal w = .ok constant := by
  intro t constant
  have ht : t.IsStandard := .array (.scalar (by decide +kernel))
  have hwritten : t.literal (.arr [.int 1, .int 2]) = .ok constant :=
    toOption_eq_some_iff.1 (by decide +kernel)
  refine ⟨ht, hwritten, fun hrecovered => ?_⟩
  have hrecoverable : Recoverable (.array (.scalar "int4")) (.arr [.int 1, .int 2]) :=
    (ht.builtFrom.recovers_iff hwritten).1 hrecovered
  cases hrecoverable with
  | array hname => exact hname.1 (by decide)

end GovernedCatalog
