import GovernedCatalog.Proofs.Sql.Construct

/-!
# Selections from named tables

A selection of a constant from tables with aliases, on a condition, is one
query.
-/

namespace GovernedCatalog.Sql.Recogniser

/-- A table and the name of its rows. -/
def source (schema table row : String) : List Token :=
  [.quoted '"' schema, .mark ".", .quoted '"' table, .word "AS",
    .quoted '"' row]

/-- The constant one, selected from tables on a condition. -/
def selectionOf (sources : List (List Token)) (condition : List Token) :
    List Token :=
  .word "SELECT" :: .number "1" false :: .word "FROM" ::
    (Token.joined [.mark ","] sources ++ .word "WHERE" :: condition)

/-- What stands behind a table of a selection. -/
def EndsTable (rest : List Token) : Prop :=
  ∃ more, rest = .mark "," :: more ∨ rest = .word "WHERE" :: more

section Tables

variable (inside : Inside) (schema table row : String) {rest : List Token}
  (hrest : EndsTable rest)

include hrest

theorem tableAlias_as :
    tableAlias (.word "AS" :: .quoted '"' row :: rest) = some rest := by
  have halias : aliasUnless reservedForTables
      (.word "AS" :: .quoted '"' row :: rest) = some rest := rfl
  have hcolumns : optionalColumnList rest = some rest := by
    obtain ⟨more, rfl | rfl⟩ := hrest <;> rfl
  have hlength : rest.length ≠ rest.length + 1 + 1 := by omega
  simp [tableAlias, halias, hcolumns, hlength]

theorem namedTable_source :
    namedTable inside (source schema table row ++ rest) = some rest := by
  have hname : objectName (source schema table row ++ rest) =
      some (.word "AS" :: .quoted '"' row :: rest) := rfl
  have hcall (tokens : List Token) :
      following (mark "(") (arguments inside) (.word "AS" :: tokens) =
        some (.word "AS" :: tokens) := rfl
  have hhints (hints : Recogniser) :
      following (fun tokens => (keyword "WITH" tokens).bind (mark "(")) hints
        rest = some rest := by
    obtain ⟨more, rfl | rfl⟩ := hrest <;> rfl
  have hpivots : many (pivoted inside) rest = some rest := by
    obtain ⟨more, rfl | rfl⟩ := hrest <;> rfl
  simp only [namedTable, sequence, hname, hcall, tableAlias_as row hrest,
    hhints, hpivots, Option.bind_some]

theorem joinedTables_source :
    joinedTables inside (source schema table row ++ rest) = some rest := by
  have hfactor : tableFactor inside (source schema table row ++ rest)
      (source schema table row ++ rest) = some (false, rest) := by
    have hnamed : tableFactor inside (source schema table row ++ rest)
        (source schema table row ++ rest) =
          (namedTable inside (source schema table row ++ rest)).map
            fun tail => (false, tail) := rfl
    rw [hnamed, namedTable_source inside schema table row hrest]
    rfl
  have hjoins (factor : Recogniser) :
      many (join inside factor) rest = some rest := by
    obtain ⟨more, rfl | rfl⟩ := hrest <;> rfl
  simp only [joinedTables, andThen, hfactor, Option.map_some, Option.bind_some,
    hjoins]

end Tables

/-- Tables with their names. -/
def IsSource (tokens : List Token) : Prop :=
  ∃ schema table row, tokens = source schema table row

variable {depth : Nat} {sources : List (List Token)} {condition : List Token}

theorem sources_read (inside : Inside) (hne : sources ≠ [])
    (hsources : ∀ tokens ∈ sources, IsSource tokens) (more : List Token) :
    commaList (joinedTables inside)
        (Token.joined [.mark ","] sources ++ .word "WHERE" :: more) =
      some (.word "WHERE" :: more) := by
  apply commaList_joined hne _ rfl
  intro tokens htokens rest hrest
  obtain ⟨schema, table, row, rfl⟩ := hsources tokens htokens
  apply joinedTables_source
  rcases hrest with rfl | ⟨more, rfl⟩
  · exact ⟨more, .inr rfl⟩
  · exact ⟨more, .inl rfl⟩

section Closing

variable (tail : List Token)

theorem skip_before_closing (words : List String) (word : String)
    (second : Recogniser) :
    following (keywords (word :: words)) second (.mark ")" :: tail) =
      some (.mark ")" :: tail) := rfl

theorem skipWord_before_closing (word : String) (second : Recogniser) :
    following (keyword word) second (.mark ")" :: tail) =
      some (.mark ")" :: tail) := rfl

end Closing

/-- A selection after its first word, up to a closing parenthesis. -/
theorem selection_eq (inside : Inside) {tables after tail : List Token}
    (hone : inside.expression (.number "1" false :: .word "FROM" :: tables) =
      some (.word "FROM" :: tables))
    (htables : commaList (joinedTables inside) tables =
      some (.word "WHERE" :: after))
    (hafter : inside.expression after = some (.mark ")" :: tail)) :
    selection inside (.number "1" false :: .word "FROM" :: tables) =
      some (.mark ")" :: tail) := by
  have hfirst : allOrDistinct inside
      (.number "1" false :: .word "FROM" :: tables) =
        some (.number "1" false :: .word "FROM" :: tables) := rfl
  have htop : following (keyword "TOP") (top inside)
      (.number "1" false :: .word "FROM" :: tables) =
        some (.number "1" false :: .word "FROM" :: tables) := rfl
  have hitem : selectItem inside (.number "1" false :: .word "FROM" :: tables) =
      some (.word "FROM" :: tables) := by
    have hexpression : selectItem inside
        (.number "1" false :: .word "FROM" :: tables) =
          sequence
            [inside.expression,
              following (sequence [keyword "FILTER", mark "(", keyword "WHERE"])
                (andThen inside.expression (mark ")")),
              aliasUnless reservedForColumns]
            (.number "1" false :: .word "FROM" :: tables) := rfl
    simp only [hexpression, sequence, hone, Option.bind_some]
    rfl
  have hitems : commaList (selectItem inside)
      (.number "1" false :: .word "FROM" :: tables) =
        some (.word "FROM" :: tables) := by
    simp only [commaList, separated, andThen, hitem, Option.bind_some]
    rfl
  have hinto : following (keyword "INTO") target (.word "FROM" :: tables) =
      some (.word "FROM" :: tables) := rfl
  have hfrom (second : Recogniser) :
      following (keyword "FROM") second (.word "FROM" :: tables) =
        second tables := rfl
  have hviews (item : Recogniser) :
      each (keywords ["LATERAL", "VIEW"]) item (.word "WHERE" :: after) =
        some (.word "WHERE" :: after) := rfl
  have hwhere (second : Recogniser) :
      following (keyword "WHERE") second (.word "WHERE" :: after) =
        second after := rfl
  simp only [selection, sequence, hfirst, htop, hitems, hinto, hfrom, htables,
    hviews, hwhere, hafter, skip_before_closing, skipWord_before_closing,
    Option.bind_some]

/-- A query that is a selection, up to a closing parenthesis. -/
theorem fullQuery_eq (inside : Inside) {rest tail : List Token}
    (hselection : selection inside rest = some (.mark ")" :: tail)) :
    fullQuery inside (.word "SELECT" :: rest) = some (.mark ")" :: tail) := by
  have hcommon : commonTables inside (.word "SELECT" :: rest) =
      some (.word "SELECT" :: rest) := rfl
  have hterm : queryTerm inside (.word "SELECT" :: rest) =
      selection inside rest := rfl
  have hterms (item : Recogniser) :
      each setOperator item (.mark ")" :: tail) = some (.mark ")" :: tail) := rfl
  have horder : orderBy inside (.mark ")" :: tail) =
      some (.mark ")" :: tail) := rfl
  have hlimits : limitsFor inside 2 false false (.mark ")" :: tail) =
      some (.mark ")" :: tail) := rfl
  have hpurposes : purposes (.mark ")" :: tail) = some (.mark ")" :: tail) := rfl
  have hinsert (first second : Recogniser) :
      branch (keyword "INSERT") first second (.word "SELECT" :: rest) =
        second (.word "SELECT" :: rest) := rfl
  have hupdate (first second : Recogniser) :
      branch (keyword "UPDATE") first second (.word "SELECT" :: rest) =
        second (.word "SELECT" :: rest) := rfl
  simp only [fullQuery, andThen, hcommon, hinsert, hupdate, sequence, separated,
    hterm, hselection, hterms, horder, hlimits, skipWord_before_closing,
    hpurposes, Option.bind_some]

/-- Whether the tables have rows on which the condition holds. -/
theorem exists_isOperand (hne : sources ≠ [])
    (hsources : ∀ tokens ∈ sources, IsSource tokens)
    (hcondition : IsExpression (depth + 1) condition) :
    IsOperand (depth + 2) tightPrecedence
      (.word "EXISTS" :: .mark "(" ::
        (selectionOf sources condition ++ [.mark ")"])) := by
  apply IsOperand.of_plain ⟨_, _, rfl, by decide +kernel, by simp⟩
  · intro levels steps tail _ _ _
    refine typedConstant_of_call (by decide +kernel) ?_ _
    obtain ⟨first, sources, rfl⟩ := List.exists_cons_of_ne_nil hne
    obtain ⟨schema, table, row, rfl⟩ := hsources first List.mem_cons_self
    rw [selectionOf, joined_cons]
    rfl
  · intro levels steps tail hlevels hsteps htail
    simp only [selectionOf, List.length_cons, List.length_append] at hsteps
    obtain ⟨levels, rfl⟩ := Nat.exists_eq_add_one_of_ne_zero
      (Nat.ne_zero_of_lt hlevels)
    obtain ⟨steps, rfl⟩ := Nat.exists_eq_add_one_of_ne_zero
      (Nat.ne_zero_of_lt hsteps)
    have hone (tables : List Token) : (Inside.full steps levels).expression
        (.number "1" false :: .word "FROM" :: tables) =
          some (.word "FROM" :: tables) := by
      have hnumber := ((number_isOperand "1" false).phrase 0).expression
      exact hnumber.reads (by omega) (by simp; omega)
        (ends_cons (by decide) (by decide +kernel))
    have hread : (Inside.full steps levels).expression
        (condition ++ .mark ")" :: tail) = some (.mark ")" :: tail) :=
      hcondition.reads (by omega) (by omega) (ends_cons (by decide) (by decide))
    have hquery := fullQuery_eq (.full steps levels)
      (selection_eq (.full steps levels) (hone _)
        (sources_read (.full steps levels) hne hsources _) hread)
    have hplain (rest : List Token) :
        plainOperand (.full (steps + 1) (levels + 1))
            (.word "EXISTS" :: .mark "(" :: rest) =
          sequence [fullQuery (.full steps levels), mark ")"] rest := rfl
    have htokens : .word "EXISTS" :: .mark "(" ::
        (selectionOf sources condition ++ [.mark ")"]) ++ tail =
        .word "EXISTS" :: .mark "(" :: .word "SELECT" :: .number "1" false ::
          .word "FROM" :: (Token.joined [.mark ","] sources ++
            .word "WHERE" :: (condition ++ .mark ")" :: tail)) := by
      simp [selectionOf]
    simp only [htokens, hplain, sequence, hquery, closing_read, Option.bind_some]

end GovernedCatalog.Sql.Recogniser
