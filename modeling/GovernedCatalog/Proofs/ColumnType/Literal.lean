import GovernedCatalog.Proofs.ColumnType.Canonical
import GovernedCatalog.Proofs.ColumnType.Recovery
import GovernedCatalog.Proofs.ColumnType.Spelling

/-!
# Constants as SQL reads them

Values are written for a type as signed numbers, texts with a cast, or arrays of
such constants with a cast.  Only numbers that are not finite are written by names,
which SQL takes for columns.
-/

namespace GovernedCatalog

open Sql Sql.Token

/-! ## Tokens of constants -/

/-- The tokens of a type's name. -/
def ColumnType.nameTokens : ColumnType → List Token
  | scalar name => [.word name]
  | array base => base.nameTokens ++ [.mark "[", .mark "]"]
  | domain name _ => [.word name]

/-- The tokens of a constant of a type. -/
inductive ConstantTokens : ColumnType → List Token → Prop
  | number {name : String} (hname : ¬InQuotes name) {tokens : List Token}
      (h : IsSigned tokens) : ConstantTokens (.scalar name) tokens
  | quoted {name : String} (hname : InQuotes name) (text : String) :
      ConstantTokens (.scalar name) [.text text, .mark "::", .word name]
  | array {base : ColumnType} {items : List (List Token)}
      (hitems : ∀ item ∈ items, ConstantTokens base item) :
      ConstantTokens base.array
        ([.word "ARRAY", .mark "["] ++ joined [.mark ","] items ++
          [.mark "]", .mark "::"] ++ base.array.nameTokens)

/-- The words that are neither the keyword of an array nor the name of a type behind
a cast, given whether a cast stands before. -/
def Sql.Token.bareWords : (cast : Bool) → List Token → List String
  | _, [] => []
  | cast, .word w :: rest =>
      if cast ∨ w = "ARRAY" then bareWords false rest else w :: bareWords false rest
  | _, token :: rest => bareWords (token = .mark "::") rest

section BareWords

variable {tokens more : List Token} {m : String}

theorem bareWords_mark (cast : Bool) (m : String) (rest : List Token) :
    bareWords cast (.mark m :: rest) = bareWords (m = "::") rest := by
  simp [bareWords]

/-- A mark is no name of a type. -/
theorem bareWords_append (cast : Bool) (tokens : List Token) (m : String)
    (rest : List Token) :
    bareWords cast (tokens ++ .mark m :: rest) =
      bareWords cast tokens ++ bareWords false (.mark m :: rest) := by
  induction tokens generalizing cast with
  | nil => simp [bareWords]
  | cons token tokens ih =>
    cases token with
    | word w =>
      rw [List.cons_append, bareWords, bareWords, ih]
      split <;> rfl
    | _ => exact ih _

theorem bareWords_joined (items : List (List Token)) :
    bareWords false (joined [.mark ","] items) = items.flatMap (bareWords false) := by
  induction items with
  | nil => rfl
  | cons tokens rest ih =>
    cases rest with
    | nil => simp [joined]
    | cons next rest =>
      have hcomma : bareWords false (.mark "," :: joined [.mark ","] (next :: rest)) =
          bareWords false (joined [.mark ","] (next :: rest)) := bareWords_mark _ _ _
      rw [List.flatMap_cons, ← ih, ← hcomma]
      exact bareWords_append false tokens "," _

theorem bareWords_nameTokens (t : ColumnType) : bareWords true t.nameTokens = [] := by
  induction t with
  | scalar name => simp [ColumnType.nameTokens, bareWords]
  | domain name base => simp [ColumnType.nameTokens, bareWords]
  | array base ih => simp [ColumnType.nameTokens, bareWords_append, ih, bareWords]

/-- An array has the bare words of its items. -/
theorem bareWords_array (items : List (List Token)) (t : ColumnType) :
    bareWords false ([.word "ARRAY", .mark "["] ++ joined [.mark ","] items ++
      [.mark "]", .mark "::"] ++ t.nameTokens) = items.flatMap (bareWords false) := by
  rw [List.append_assoc, List.append_assoc]
  change bareWords false (joined [.mark ","] items ++ .mark "]" :: .mark "::" :: t.nameTokens) = _
  rw [bareWords_append, bareWords_joined, bareWords_mark, bareWords_mark]
  simp [bareWords_nameTokens]

theorem ConstantTokens.bareWords_eq_nil {t : ColumnType} (h : ConstantTokens t tokens) :
    bareWords false tokens = [] := by
  induction h with
  | number _ h => cases h <;> rfl
  | quoted _ text => rfl
  | array _ ih => rw [bareWords_array, List.flatMap_eq_nil_iff.2 ih]

end BareWords

/-! ## Constants that are written -/

/-- Every number that the type writes for the value is finite. -/
def ColumnType.AllFinite : ColumnType → Json → Prop
  | scalar name, v | domain name _, v =>
      name ∈ realNames → ∀ x, realNumber? v = some x → x.isFinite = true
  | array base, v => ∀ items, v = .arr items → ∀ item ∈ items, base.AllFinite item

/-- The tokens are a constant of the type if all numbers of the value are finite, and
have the names of the others in them if not. -/
structure ReadsFor (t : ColumnType) (v : Json) (tokens : List Token) : Prop where
  constant : t.AllFinite v → ConstantTokens t tokens
  finite : bareWords false tokens = [] → t.AllFinite v
  names : ∀ w ∈ bareWords false tokens, w = "NaN" ∨ w = "inf"

theorem ConstantTokens.readsFor {t : ColumnType} {v : Json} {tokens : List Token}
    (h : ConstantTokens t tokens) (hfinite : t.AllFinite v) : ReadsFor t v tokens where
  constant _ := h
  finite _ := hfinite
  names := by simp [h.bareWords_eq_nil]

theorem readsFor_named {name : String} (hname : name ∈ realNames) {v : Json} {x : Float}
    (hv : realNumber? v = some x) (hx : x.isFinite = false) {tokens : List Token}
    (h : IsNamedNumber tokens) : ReadsFor (.scalar name) v tokens where
  constant hfinite := by
    rw [hfinite hname x hv] at hx
    cases hx
  finite hnil := by cases h <;> cases hnil
  names := by cases h <;> simp [bareWords]

/-- The name is one word in SQL. -/
def IsTypeWord (name : String) : Prop := ReadsAs name [.word name]

instance (name : String) : Decidable (IsTypeWord name) :=
  inferInstanceAs (Decidable (ReadsAs _ _))

theorem constantText?_readsFor {name : String} (hword : IsTypeWord name) {v : Json}
    {sql : String} (h : constantText? name v = some sql) :
    Writes (ReadsFor (.scalar name) v) sql := by
  cases scalarConstant_of_constantText? h with
  | @whole hname n hv =>
    have hreal : name ∉ realNames := fun hreal =>
      not_or.2 (realNames_apart name hreal) hname
    have hquotes : ¬InQuotes name := fun hquotes =>
      not_or.2 ⟨hquotes.1, hquotes.2.1⟩ hname
    exact (int_writes n).mono fun _ h =>
      (ConstantTokens.number hquotes h).readsFor fun hreal' => absurd hreal' hreal
  | @real hname x hv =>
    cases hx : x.isFinite with
    | true =>
      have hfinite : (ColumnType.scalar name).AllFinite v := by
        intro _ y hy
        rw [hv, Option.some.injEq] at hy
        rwa [← hy]
      exact (finite_writes hx).mono fun _ h =>
        (ConstantTokens.number (fun hquotes => hquotes.2.2 hname) h).readsFor hfinite
    | false => exact (named_writes hx).mono fun _ => readsFor_named hname hv hx
  | @quoted hname text hv =>
    have hliteral := ((spells_literal text).append spells_cast fun _ => by
      simp).then_ (Spells.of_readsAs hword)
    exact ⟨_, hliteral, (ConstantTokens.quoted hname text).readsFor fun hreal =>
      absurd hreal hname.2.2⟩

/-! ### Arrays -/

section Lists

variable {α β γ : Type} {f : α → Except Error β} {l : List α} {results : List β}

/-- What holds of each step of a run holds of its results one by one. -/
theorem forall₂_of_mapM {S : β → γ → Prop} {R : α → γ → Prop}
    (h : l.mapM f = .ok results)
    (hstep : ∀ a ∈ l, ∀ b, f a = .ok b → ∃ c, S b c ∧ R a c) :
    ∃ cs, List.Forall₂ S results cs ∧ List.Forall₂ R l cs := by
  induction l generalizing results with
  | nil =>
    cases h
    exact ⟨[], .nil, .nil⟩
  | cons a rest ih =>
    obtain ⟨ha, hrest⟩ := List.forall_mem_cons.1 hstep
    rw [List.mapM_cons] at h
    obtain ⟨b, hb, h⟩ := bind_eq_ok.1 h
    obtain ⟨others, hothers, h⟩ := bind_eq_ok.1 h
    cases h
    obtain ⟨c, hS, hR⟩ := ha b hb
    obtain ⟨cs, hSs, hRs⟩ := ih hothers hrest
    exact ⟨c :: cs, .cons hS hSs, .cons hR hRs⟩

theorem exists_of_forall₂ {R : α → γ → Prop} {cs : List γ} (h : List.Forall₂ R l cs) :
    ∀ a ∈ l, ∃ c ∈ cs, R a c := by
  induction h with
  | nil => simp
  | cons hR _ ih =>
    refine List.forall_mem_cons.2 ⟨⟨_, List.mem_cons_self, hR⟩, fun a ha => ?_⟩
    obtain ⟨c, hc, hR⟩ := ih a ha
    exact ⟨c, List.mem_cons_of_mem _ hc, hR⟩

end Lists

theorem readsFor_array {base : ColumnType} {items : List Json} {tokens : List (List Token)}
    (h : List.Forall₂ (ReadsFor base) items tokens) :
    ReadsFor base.array (.arr items)
      ([.word "ARRAY", .mark "["] ++ joined [.mark ","] tokens ++
        [.mark "]", .mark "::"] ++ base.array.nameTokens) where
  constant hfinite := by
    refine .array fun item hitem => ?_
    obtain ⟨v, hv, hreads⟩ := exists_of_forall₂ h.flip item hitem
    exact hreads.constant (hfinite items rfl v hv)
  finite hnil := by
    rw [bareWords_array, List.flatMap_eq_nil_iff] at hnil
    rintro _ ⟨⟩ v hv
    obtain ⟨item, hitem, hreads⟩ := exists_of_forall₂ h v hv
    exact hreads.finite (hnil item hitem)
  names := by
    intro w hw
    rw [bareWords_array, List.mem_flatMap] at hw
    obtain ⟨item, hitem, hw⟩ := hw
    obtain ⟨v, -, hreads⟩ := exists_of_forall₂ h.flip item hitem
    exact hreads.names w hw

namespace ColumnType.BuiltFrom

variable {t : ColumnType}

theorem name_spells (ht : t.BuiltFrom IsTypeWord) : SpellsWhole t.sql t.nameTokens := by
  induction ht with
  | scalar hname => exact .of_readsAs hname
  | array _ ih => exact ih.ended (by decide +kernel)

theorem literal_readsFor (ht : t.BuiltFrom IsTypeWord) {v : Json} {sql : String}
    (h : t.literal v = .ok sql) : Writes (ReadsFor t v) sql := by
  induction ht generalizing v sql with
  | scalar hname => exact constantText?_readsFor hname (scalar_literal_eq_ok.1 h)
  | @array base hbase ih =>
    obtain ⟨items, constants, rfl, hconstants, rfl⟩ := array_literal_eq_ok.1 h
    obtain ⟨tokens, hspells, hreads⟩ :=
      forall₂_of_mapM hconstants fun item _ constant hitem => ih hitem
    exact ⟨_, spells_typedArray (spells_join separates_comma hspells) hbase.array.name_spells,
      readsFor_array hreads⟩

end ColumnType.BuiltFrom

/-! ## Standard types -/

/-- The standard policies name the type, or what it is an array of, by its own
name. -/
def ColumnType.IsKnown : ColumnType → Prop :=
  BuiltFrom fun name => Settings.standard.canonicalType true name none = .ok name

theorem standard_isTypeWord :
    ∀ name ∈ TypePolicy.standard.types.keys ++ TypePolicy.existing.types.keys,
      IsTypeWord name := by decide +kernel

theorem ColumnType.IsKnown.builtFrom {t : ColumnType} (ht : t.IsKnown) :
    t.BuiltFrom IsTypeWord := by
  refine ht.mono fun name hname => standard_isTypeWord name (List.mem_append.2 ?_)
  rcases Settings.canonical_of_canonicalType hname with hnew | ⟨-, hold⟩
  · exact .inl (TypePolicy.mem_keys_of_canonical? hnew)
  · exact .inr (TypePolicy.mem_keys_of_canonical? hold)

/-- A literal of a standard type is read as a constant of the type exactly if the
numbers in it are finite, and exactly then there is no bare name in it. -/
theorem ColumnType.literal_constant_iff {t : ColumnType} (ht : t.IsKnown) {v : Json}
    {sql : String} (h : t.literal v = .ok sql) :
    ∃ tokens, Token.ofText? sql = some tokens ∧
      (ConstantTokens t tokens ↔ t.AllFinite v) ∧
      (bareWords false tokens = [] ↔ t.AllFinite v) ∧
      ∀ w ∈ bareWords false tokens, w = "NaN" ∨ w = "inf" := by
  obtain ⟨tokens, hspells, hreads⟩ := ht.builtFrom.literal_readsFor h
  refine ⟨tokens, hspells.ofText?, ⟨fun hconstant => ?_, hreads.constant⟩,
    ⟨hreads.finite, fun hfinite => ?_⟩, hreads.names⟩
  · exact hreads.finite hconstant.bareWords_eq_nil
  · exact (hreads.constant hfinite).bareWords_eq_nil

/-- Numbers in arrays of arrays, of which one is given by its text. -/
theorem ColumnType.literal_constant_iff_readings :
    let t : ColumnType := .array (.array (.scalar "float8"))
    let readings : Json := .arr [.arr [.str " -2.5e3 ", .int 4], .arr []]
    let sql := "ARRAY[ARRAY[-2500.0, 4.0]::float8[], ARRAY[]::float8[]]::float8[][]"
    t.IsKnown ∧ t.literal readings = .ok sql ∧
      ∃ tokens, Token.ofText? sql = some tokens ∧ ConstantTokens t tokens ∧
        bareWords false tokens = [] := by
  intro t readings sql
  have ht : t.IsKnown := .array (.array (.scalar (toOption_eq_some_iff.1 (by decide +kernel))))
  have hliteral : t.literal readings = .ok sql := toOption_eq_some_iff.1 (by decide +kernel)
  have hnumbers : ∀ v ∈ [Json.str " -2.5e3 ", .int 4],
      (realNumber? v).all Float.isFinite = true := by decide +kernel
  have hfinite : t.AllFinite readings := by
    intro rows hrows row hrow items hitems v hv _ x hx
    obtain rfl := Json.arr.inj hrows
    have hmem : v ∈ [Json.str " -2.5e3 ", .int 4] := by
      rcases List.mem_pair.1 hrow with hrow | hrow
      · obtain rfl := Json.arr.inj (hrow.symm.trans hitems)
        exact hv
      · obtain rfl := Json.arr.inj (hrow.symm.trans hitems)
        cases hv
    simpa [hx] using hnumbers v hmem
  obtain ⟨tokens, hread, hconstant, hbare, -⟩ := ColumnType.literal_constant_iff ht hliteral
  exact ⟨ht, hliteral, tokens, hread, hconstant.2 hfinite, hbare.2 hfinite⟩

/-- The text NaN is taken for a number, and its name for the name of a column. -/
theorem ColumnType.nan_not_constant :
    let t : ColumnType := .scalar "float8"
    t.IsKnown ∧ t.literal (.str "NaN") = .ok "NaN" ∧
      Token.ofText? "NaN" = some [.word "NaN"] ∧
      ¬ConstantTokens t [.word "NaN"] ∧ bareWords false [.word "NaN"] ≠ [] := by
  intro t
  have hbare : bareWords false [.word "NaN"] ≠ [] := by decide
  exact ⟨.scalar (toOption_eq_some_iff.1 (by decide +kernel)),
    toOption_eq_some_iff.1 (by decide +kernel), by decide +kernel,
    fun hconstant => hbare hconstant.bareWords_eq_nil, hbare⟩

end GovernedCatalog
