import GovernedCatalog.Proofs.Sql.Operand
import GovernedCatalog.Sql.Query

/-!
# Queries before a closing parenthesis

Tables and queries end before the closing parenthesis that is added, as long as
this holds of the expressions and queries inside them.
-/

namespace GovernedCatalog.Sql.Recogniser

variable {tail : List Token} [hstops : Stops tail] {bound depth : Nat}

theorem tableAlias_tracks :
    Tracks tail bound depth depth tableAlias tableAlias := by
  have halias : Tracks tail bound depth depth
      (aliasUnless reservedForTables) (aliasUnless reservedForTables) :=
    aliasUnless_tracks _
  have hcolumns : Tracks tail bound depth depth optionalColumnList
      optionalColumnList := optionalColumnList_tracks
  constructor
  · intro tokens hbound henclosed
    unfold tableAlias
    rw [halias.same hbound henclosed]
    cases hrest : aliasUnless reservedForTables tokens with
    | none => rfl
    | some rest =>
      obtain ⟨hle, henclosed'⟩ := halias.rest hbound henclosed hrest
      simp only [Option.map_some, Option.bind_some, List.length_append,
        Nat.add_right_cancel_iff]
      split
      · rfl
      · exact hcolumns.same (Nat.lt_of_le_of_lt hle hbound) henclosed'
  · intro tokens rest hbound henclosed h
    obtain ⟨middle, hmiddle, h⟩ := Option.bind_eq_some_iff.mp h
    obtain ⟨hle, henclosed'⟩ := halias.rest hbound henclosed hmiddle
    split at h
    · obtain rfl := Option.some.inj h
      exact ⟨hle, henclosed'⟩
    · obtain ⟨hle', hrest⟩ :=
        hcolumns.rest (Nat.lt_of_le_of_lt hle hbound) henclosed' h
      exact ⟨Nat.le_trans hle' hle, hrest⟩

/-- A lookahead at one of several keywords. -/
theorem lookahead_tracks (words : List String) :
    Tracks tail bound depth depth
      (fun tokens => (anyKeyword words tokens).bind fun _ => some tokens)
      (fun tokens => (anyKeyword words tokens).bind fun _ => some tokens) := by
  have hite : (fun tokens => (anyKeyword words tokens).bind
        fun _ => some tokens) = fun tokens =>
      if (anyKeyword words tokens).isSome then nothing tokens else none := by
    funext tokens
    cases anyKeyword words tokens <;> rfl
  rw [hite]
  exact (anyKeyword_advances _).toTracks.ite .nothing .fail

theorem documentColumn_tracks :
    Tracks tail bound depth depth documentColumn documentColumn := by
  have hfallback {bound : Nat} : Advances tail bound depth depth
      (sequence [branch (keyword "DEFAULT") value
        (anyKeyword ["NULL", "ERROR"]), keyword "ON",
        anyKeyword ["EMPTY", "ERROR"]]) _ :=
    ((keyword_advances _).branch value_advances.toTracks
      (anyKeyword_advances _)).cons
        ((keyword_advances _).toTracks.cons
          ((anyKeyword_advances _).toTracks.cons .nil))
  exact nameOrText_advances.toTracks.cons (typeName_advances.toTracks.cons
    ((keyword_advances _).toTracks.optional.cons
      ((keyword_advances _).toTracks.cons (value_advances.toTracks.cons
        (Tracks.cons (.each rfl (lookahead_tracks _)
          ((lookahead_tracks _).andThen_advances hfallback)) .nil)))))

section Inside

variable {inside inside' : Inside}
  (hinside : Inside.Tracks tail bound inside inside')

include hinside

theorem documentTable_tracks :
    Tracks tail bound depth depth (documentTable inside)
      (documentTable inside') := by
  exact (parenthesised_advances (hinside.pred.expression.cons
    ((mark_advances (by decide) (by decide)).toTracks.cons
      (value_advances.toTracks.cons ((keyword_advances _).toTracks.cons
        ((parenthesised_advances
          (commaList_tracks documentColumn_tracks)).toTracks.cons
            .nil)))))).toTracks.andThen tableAlias_tracks

theorem unnested_tracks :
    Tracks tail bound depth depth (unnested inside) (unnested inside') := by
  have hoffset : Tracks tail bound depth depth
      (following (keyword "WITH") (following (keyword "OFFSET")
        (aliasUnless reservedForColumns))) _ :=
    (keyword_advances _).toTracks.following
      ((keyword_advances _).toTracks.following (aliasUnless_tracks _))
  exact (parenthesised_advances (expressions_tracks
    hinside).pred).toTracks.cons
      (tableAlias_tracks.cons (hoffset.cons .nil))

theorem pivoted_advances :
    Advances tail bound depth depth (pivoted inside) (pivoted inside') := by
  have hrows : Tracks tail bound depth depth
      (parenthesised (sequence [name, call inside, keyword "FOR", objectName,
        keyword "IN", parenthesised (commaList value)]))
      (parenthesised (sequence [name, call inside', keyword "FOR", objectName,
        keyword "IN", parenthesised (commaList value)])) :=
    (parenthesised_advances (name_advances.toTracks.cons
      ((call_tracks hinside).pred.cons ((keyword_advances _).toTracks.cons
        (objectName_advances.toTracks.cons ((keyword_advances _).toTracks.cons
          ((parenthesised_advances
            (commaList_tracks value_advances.toTracks)).toTracks.cons
              .nil))))))).toTracks
  have hcolumns : Tracks tail bound depth depth
      (parenthesised (sequence [nameOrText, keyword "FOR", nameOrText,
        keyword "IN", columnList])) _ :=
    (parenthesised_advances (nameOrText_advances.toTracks.cons
      ((keyword_advances _).toTracks.cons (nameOrText_advances.toTracks.cons
        ((keyword_advances _).toTracks.cons
          (columnList_advances.toTracks.cons .nil)))))).toTracks
  exact ((keyword_advances _).branch hrows.pred
    ((keyword_advances _).andThen hcolumns.pred)).andThen tableAlias_tracks

theorem namedTable_advances :
    Advances tail bound depth depth (namedTable inside)
      (namedTable inside') := by
  have hhints {bound depth : Nat} : Tracks tail bound depth (depth + 1)
      (fun tokens => (keyword "WITH" tokens).bind (mark "(")) _ :=
    (keyword_advances _).toTracks.andThen opening_advances.toTracks
  exact objectName_advances.cons
    (Tracks.cons (opening_advances.toTracks.following (arguments_tracks hinside.pred))
      (tableAlias_tracks.cons (Tracks.cons (hhints.following
        ((expressions_tracks hinside.pred).andThen closing_advances.toTracks))
        (Tracks.cons (.many rfl (pivoted_advances hinside.pred)) .nil))))

theorem simpleTable_advances :
    Advances tail bound depth depth (simpleTable inside)
      (simpleTable inside') := by
  exact (keyword_advances _).branch
    ((parenthesised_advances hinside.pred.pred.expression).toTracks.andThen
      tableAlias_tracks)
    ((keyword_advances _).branch (unnested_tracks hinside.pred)
      ((keyword_advances _).branch (documentTable_tracks hinside.pred)
        (namedTable_advances hinside)))

theorem derivedTable_tracks :
    Tracks tail bound (depth + 1) depth (derivedTable inside)
      (derivedTable inside') :=
  hinside.query.cons
    (closing_advances.toTracks.cons (tableAlias_tracks.cons .nil))

theorem lateralTable_tracks :
    Tracks tail bound depth depth (lateralTable inside)
      (lateralTable inside') :=
  opening_advances.toTracks.branch (derivedTable_tracks hinside)
    (objectName_advances.toTracks.cons (opening_advances.toTracks.cons
      ((arguments_tracks hinside).cons (tableAlias_tracks.cons .nil))))

theorem joinCondition_tracks :
    Tracks tail bound depth depth (joinCondition inside)
      (joinCondition inside') :=
  (keyword_advances _).toTracks.branch hinside.expression
    ((keyword_advances _).toTracks.following columnList_advances.toTracks)

end Inside

/-- Words that join tables under a condition. -/
def conditionalJoin : Recogniser :=
  let oneSided :=
    andThen (anyKeyword ["LEFT", "RIGHT"])
      (andThen (optional (anyKeyword ["OUTER", "SEMI", "ANTI"]))
        (keyword "JOIN"))
  let full :=
    sequence [keyword "FULL", optional (keyword "OUTER"), keyword "JOIN"]
  orElse (andThen (optional (keyword "INNER")) (keyword "JOIN"))
    (orElse oneSided full)

/-- Words that join tables without a condition. -/
def unconditionalJoin : Recogniser :=
  branch (keyword "CROSS") (anyKeyword ["JOIN", "APPLY"])
    (keywords ["OUTER", "APPLY"])

omit hstops in
theorem join_eq_branch (inside : Inside) (factor : Recogniser) :
    join inside factor =
      branch unconditionalJoin factor
        (branch (keyword "NATURAL") (andThen conditionalJoin factor)
          (andThen conditionalJoin
            (andThen factor (joinCondition inside)))) := by
  funext tokens
  have hwords : joinWords tokens =
      (unconditionalJoin tokens).elim
        ((keyword "NATURAL" tokens).elim
          ((conditionalJoin tokens).map fun tail => (true, tail))
          fun rest => (conditionalJoin rest).map fun tail => (false, tail))
        fun rest => some (false, rest) := by
    unfold joinWords
    extract_lets oneSided full inner conditional unconditional
    change _ = (unconditional tokens).elim
      ((keyword "NATURAL" tokens).elim
        ((conditional tokens).map fun tail => (true, tail))
        fun rest => (conditional rest).map fun tail => (false, tail))
      fun rest => some (false, rest)
    cases unconditional tokens with
    | some rest => rfl
    | none => cases keyword "NATURAL" tokens <;> rfl
  have hnothing (x : Option (List Token)) : x.bind nothing = x := by
    cases x <;> rfl
  unfold join branch andThen
  rw [hwords]
  cases unconditionalJoin tokens with
  | some rest => exact hnothing (factor rest)
  | none =>
    cases keyword "NATURAL" tokens with
    | some rest =>
      cases hrest : conditionalJoin rest with
      | none => simp [hrest]
      | some rest' => simpa [hrest] using hnothing (factor rest')
    | none => cases conditionalJoin tokens <;> simp

theorem conditionalJoin_advances :
    Advances tail bound depth depth conditionalJoin conditionalJoin := by
  have hside {bound : Nat} : Tracks tail bound depth depth
      (andThen (optional (anyKeyword ["OUTER", "SEMI", "ANTI"]))
        (keyword "JOIN")) _ :=
    (anyKeyword_advances _).toTracks.optional.andThen
      (keyword_advances _).toTracks
  exact ((keyword_advances _).toTracks.optional.andThen_advances
    (keyword_advances _)).orElse
      (((anyKeyword_advances _).andThen hside).orElse
        ((keyword_advances _).cons ((keyword_advances _).toTracks.optional.cons
          ((keyword_advances _).toTracks.cons .nil))))

theorem unconditionalJoin_advances :
    Advances tail bound depth depth unconditionalJoin unconditionalJoin :=
  (keyword_advances _).branch (anyKeyword_advances _).toTracks
    (keywords_advances _ _)

theorem join_advances {inside inside' : Inside} {factor factor' : Recogniser}
    (hinside : Inside.Tracks tail bound inside inside')
    (hfactor : Tracks tail bound depth depth factor factor') :
    Advances tail bound depth depth (join inside factor)
      (join inside' factor') := by
  rw [join_eq_branch, join_eq_branch]
  exact unconditionalJoin_advances.branch hfactor.pred
    ((keyword_advances _).branch
      (conditionalJoin_advances.toTracks.andThen hfactor.pred)
      (conditionalJoin_advances.andThen
        (hfactor.pred.andThen (joinCondition_tracks hinside.pred))))

section Factor

variable (inside : Inside)

/-- The tables that `tableFactor` reads, without the tag. -/
def factorFor (steps : List Token) : Recogniser := fun tokens =>
  (tableFactor inside steps tokens).map (·.2)

/-- Whether `tableFactor` finds tables joined in parentheses. -/
def isNested : List Token → Bool
  | .mark "(" :: rest => (derivedTable inside rest).isNone
  | _ => false

/-- Tables joined in parentheses, after the opening one. -/
def nestedTables (factor : Recogniser) : Recogniser := fun tokens =>
  (factor tokens).bind fun first =>
    (many (join inside factor) first).bind fun joined =>
      if isNested inside tokens ∨ joined.length < first.length then
        andThen (mark ")") tableAlias joined
      else none

/-- A table, given those that may be nested in it. -/
def factorStep (factor : Recogniser) : Recogniser :=
  branch (keyword "LATERAL") (lateralTable inside)
    (branch (mark "(")
      (branch (derivedTable inside) (many (pivoted inside))
        (nestedTables inside factor))
      (simpleTable inside))

theorem tableFactor_eq_step (step : Token) (steps tokens : List Token)
    (hsteps : ∀ tokens, tableFactor inside steps tokens =
      (factorFor inside steps tokens).map fun tail =>
        (isNested inside tokens, tail)) :
    tableFactor inside (step :: steps) tokens =
      (factorStep inside (factorFor inside steps) tokens).map fun tail =>
        (isNested inside tokens, tail) := by
  cases tokens with
  | nil => rfl
  | cons token rest =>
    by_cases hopen : token = .mark "("
    · subst hopen
      have hfactor : (fun tokens => (tableFactor inside steps tokens).map (·.2))
          = factorFor inside steps := rfl
      simp only [tableFactor, factorStep, branch, keyword, isKeyword,
        keywordOf, mark_cons, hfactor]
      cases hderived : derivedTable inside rest with
      | some tail => simp [isNested, hderived]
      | none =>
        have hnested : isNested inside (.mark "(" :: rest) = true := by
          simp [isNested, hderived]
        cases hfirst : factorFor inside steps rest with
        | none => simp [hsteps rest, hfirst, nestedTables, hderived]
        | some first =>
          cases hjoined : many (join inside (factorFor inside steps)) first with
          | none =>
            simp [hsteps rest, hfirst, nestedTables, hderived, hjoined]
          | some joined =>
            by_cases hmore : isNested inside rest ∨ joined.length < first.length
            · cases hrest : andThen (mark ")") tableAlias joined <;>
                simp [hsteps rest, hfirst, nestedTables, hderived, hjoined,
                  hnested, hmore, hrest]
            · simp [hsteps rest, hfirst, nestedTables, hderived, hjoined, hmore]
    · have hnested : isNested inside (token :: rest) = false := by
        unfold isNested
        split <;> simp_all
      rw [tableFactor]
      · simp only [factorStep, branch, mark_cons, hopen, hnested]
        cases keyword "LATERAL" (token :: rest) <;> rfl
      · rintro rest' heq
        exact hopen (List.cons.inj heq).1

theorem tableFactor_eq (steps tokens : List Token) :
    tableFactor inside steps tokens =
      (factorFor inside steps tokens).map fun tail =>
        (isNested inside tokens, tail) := by
  induction steps generalizing tokens with
  | nil => rfl
  | cons step steps ih =>
    have hstep := tableFactor_eq_step inside step steps tokens ih
    have hfactor : factorFor inside (step :: steps) tokens =
        factorStep inside (factorFor inside steps) tokens := by
      rw [factorFor, hstep, Option.map_map]
      exact congrFun Option.map_id _
    rw [hstep, hfactor]

theorem factorFor_cons (step : Token) (steps : List Token) :
    factorFor inside (step :: steps) =
      factorStep inside (factorFor inside steps) := by
  funext tokens
  rw [factorFor, tableFactor_eq_step inside step steps tokens
    (tableFactor_eq inside steps), Option.map_map]
  exact congrFun Option.map_id _

end Factor

section Nested

variable {inside inside' : Inside} {factor factor' : Recogniser}

theorem isNested_append (hinside : Inside.Tracks tail bound inside inside')
    {tokens : List Token} (hbound : tokens.length < bound)
    (henclosed : Encloses depth tokens) :
    isNested inside' (tokens ++ tail) = isNested inside tokens := by
  cases tokens with
  | nil => obtain rfl | ⟨more, rfl⟩ := hstops.eq_nil_or_closing <;> rfl
  | cons token rest =>
    by_cases hopen : token = .mark "("
    · subst hopen
      have hrest : rest.length < bound := Nat.lt_of_succ_lt hbound
      simp only [List.cons_append, isNested,
        (derivedTable_tracks hinside).same hrest henclosed.of_opening,
        Option.isNone_map]
    · have hnone (inside : Inside) (rest : List Token) :
          isNested inside (token :: rest) = false := by
        unfold isNested
        split <;> simp_all
      rw [List.cons_append, hnone, hnone]

theorem joined_tracks (hinside : Inside.Tracks tail bound inside inside')
    (hfactor : ∀ {depth}, Tracks tail bound depth depth factor factor') :
    Tracks tail bound depth depth (many (join inside factor))
      (many (join inside' factor')) :=
  .many rfl (join_advances hinside hfactor)

theorem nestedTables_tracks (hinside : Inside.Tracks tail bound inside inside')
    (hfactor : ∀ {depth}, Tracks tail bound depth depth factor factor') :
    Tracks tail bound (depth + 1) depth (nestedTables inside factor)
      (nestedTables inside' factor') := by
  have hjoined : Tracks tail bound (depth + 1) (depth + 1)
      (many (join inside factor)) (many (join inside' factor')) :=
    joined_tracks hinside hfactor
  have hclose : Tracks tail bound (depth + 1) depth
      (andThen (mark ")") tableAlias) (andThen (mark ")") tableAlias) :=
    closing_advances.toTracks.andThen tableAlias_tracks
  constructor
  · intro tokens hbound henclosed
    unfold nestedTables
    rw [hfactor.same hbound henclosed]
    cases hfirst : factor tokens with
    | none => rfl
    | some first =>
      obtain ⟨hle, henclosed'⟩ := hfactor.rest hbound henclosed hfirst
      have hbound' := Nat.lt_of_le_of_lt hle hbound
      simp only [Option.map_some, Option.bind_some]
      rw [hjoined.same hbound' henclosed']
      cases hrest : many (join inside factor) first with
      | none => rfl
      | some rest =>
        obtain ⟨hle', henclosed''⟩ := hjoined.rest hbound' henclosed' hrest
        simp only [Option.map_some, Option.bind_some, List.length_append,
          Nat.add_lt_add_iff_right, isNested_append hinside hbound henclosed]
        split
        · exact hclose.same (Nat.lt_of_le_of_lt hle' hbound') henclosed''
        · rfl
  · intro tokens rest hbound henclosed h
    obtain ⟨first, hfirst, h⟩ := Option.bind_eq_some_iff.mp h
    obtain ⟨joined, hrest, h⟩ := Option.bind_eq_some_iff.mp h
    obtain ⟨hle, henclosed'⟩ := hfactor.rest hbound henclosed hfirst
    have hbound' := Nat.lt_of_le_of_lt hle hbound
    obtain ⟨hle', henclosed''⟩ := hjoined.rest hbound' henclosed' hrest
    split at h
    · have hlast :=
        hclose.rest (Nat.lt_of_le_of_lt hle' hbound') henclosed'' h
      exact ⟨by omega, hlast.2⟩
    · cases h

theorem factorStep_advances (hinside : Inside.Tracks tail bound inside inside')
    (hfactor : ∀ {depth}, Tracks tail (bound - 1) depth depth factor factor') :
    Advances tail bound depth depth (factorStep inside factor)
      (factorStep inside' factor') :=
  (keyword_advances _).branch (lateralTable_tracks hinside.pred)
    (opening_advances.branch
      ((derivedTable_tracks hinside.pred).branch
        (.many rfl (pivoted_advances hinside.pred))
        (nestedTables_tracks hinside.pred hfactor))
      (simpleTable_advances hinside))

/-- At the end of the tokens no table begins, whatever may be nested in it. -/
theorem factorFor_tail (steps' : List Token) (hbound : 0 < bound)
    (hinside : Inside.Tracks tail bound inside inside')
    (henclosed : Encloses depth []) : factorFor inside' steps' tail = none := by
  cases steps' with
  | nil => rfl
  | cons step' steps' =>
    have hstep : Advances tail 1 depth depth (factorStep inside nothing)
        (factorStep inside' (factorFor inside' steps')) :=
      factorStep_advances (hinside.mono hbound) .zero
    rw [factorFor_cons]
    exact (hstep.nil_eq_none Nat.one_pos henclosed).2

theorem factorFor_tracks (steps steps' : List Token)
    (hsteps : steps.length ≤ steps'.length) {bound : Nat}
    (hbound : bound ≤ steps.length + 1)
    (hinside : Inside.Tracks tail bound inside inside') {depth : Nat} :
    Tracks tail bound depth depth (factorFor inside steps)
      (factorFor inside' steps') := by
  induction steps generalizing steps' bound depth with
  | nil =>
    constructor
    · intro tokens hlt henclosed
      obtain rfl : tokens = [] :=
        List.eq_nil_of_length_eq_zero (by simp at hbound; omega)
      rw [List.nil_append, factorFor_tail steps' hlt hinside henclosed]
      rfl
    · intro tokens rest _ _ h
      cases h
  | cons step steps ih =>
    obtain ⟨step', steps', rfl⟩ : ∃ step' steps'', steps' = step' :: steps'' := by
      cases steps' with
      | nil => simp at hsteps
      | cons step' steps' => exact ⟨step', steps', rfl⟩
    simp only [List.length_cons] at hsteps hbound
    rw [factorFor_cons, factorFor_cons]
    exact (factorStep_advances hinside (ih steps' (by omega) (by omega)
      hinside.pred)).toTracks

theorem outerFactor_tracks (hinside : Inside.Tracks tail bound inside inside') :
    Tracks tail bound depth depth
      (fun tokens => factorFor inside tokens tokens)
      (fun tokens => factorFor inside' tokens tokens) where
  same {tokens} hbound henclosed :=
    (factorFor_tracks tokens (tokens ++ tail) (by simp) (Nat.le_refl _)
      (hinside.mono hbound)).same (Nat.lt_succ_self _) henclosed
  rest {tokens rest} hbound henclosed h :=
    (factorFor_tracks tokens tokens (Nat.le_refl _) (Nat.le_refl _)
      (hinside.mono hbound)).rest (Nat.lt_succ_self _) henclosed h

theorem joinedTables_tracks (hinside : Inside.Tracks tail bound inside inside') :
    Tracks tail bound depth depth (joinedTables inside)
      (joinedTables inside') :=
  (outerFactor_tracks hinside).andThen
    (joined_tracks hinside (outerFactor_tracks hinside))

end Nested

section Inside

variable {inside inside' : Inside}
  (hinside : Inside.Tracks tail bound inside inside')

include hinside

theorem selectItem_tracks :
    Tracks tail bound depth depth (selectItem inside) (selectItem inside') := by
  have hfilter : Tracks tail bound depth (depth + 1)
      (sequence [keyword "FILTER", mark "(", keyword "WHERE"]) _ :=
    (keyword_advances _).toTracks.cons (opening_advances.toTracks.cons
      ((keyword_advances _).toTracks.cons .nil))
  exact (mark_advances (by decide) (by decide)).toTracks.orElse
    (qualifiedStar_advances.toTracks.orElse (hinside.expression.cons
      (Tracks.cons (hfilter.following
        (hinside.expression.andThen closing_advances.toTracks))
        ((aliasUnless_tracks _).cons .nil))))

theorem top_tracks :
    Tracks tail bound depth depth (top inside) (top inside') := by
  have hnumber : Tracks tail bound depth depth
      (branch (mark "(") (andThen inside.expression (mark ")")) wholeNumber)
      (branch (mark "(") (andThen inside'.expression (mark ")"))
        wholeNumber) :=
    opening_advances.toTracks.branch
      (hinside.expression.andThen closing_advances.toTracks)
      wholeNumber_advances.toTracks
  exact hnumber.cons ((keyword_advances _).toTracks.optional.cons
    ((keywords_tracks _).optional.cons .nil))

omit hinside in
theorem target_tracks : Tracks tail bound depth depth target target :=
  (anyKeyword_advances _).toTracks.optional.cons
    ((keyword_advances _).toTracks.optional.cons
      ((keyword_advances _).toTracks.optional.cons
        (objectName_advances.toTracks.cons .nil)))

theorem lateralView_tracks :
    Tracks tail bound depth depth (lateralView inside) (lateralView inside') :=
  (keyword_advances _).toTracks.optional.cons (hinside.expression.cons
    (objectName_advances.toTracks.cons
      ((commaList_tracks (aliasUnless_tracks _)).cons .nil)))

theorem groupingItem_tracks :
    Tracks tail bound depth depth (groupingItem inside)
      (groupingItem inside') := by
  have htuple {depth : Nat} : Tracks tail (bound - 1) depth depth
      (andThen (mark "(") (tupleRest inside))
      (andThen (mark "(") (tupleRest inside')) :=
    opening_advances.toTracks.andThen (tupleRest_tracks hinside.pred)
  have htupleOrOne {depth : Nat} : Tracks tail (bound - 1) depth depth
      (branch (mark "(") (tupleRest inside) inside.expression)
      (branch (mark "(") (tupleRest inside') inside'.expression) :=
    opening_advances.toTracks.branch (tupleRest_tracks hinside.pred)
      hinside.pred.expression
  exact (keywords_tracks _).branch
    (parenthesised_advances (commaList_tracks htuple)).toTracks
    ((anyKeyword_advances _).toTracks.branch
      (parenthesised_advances (commaList_tracks htupleOrOne)).toTracks
      hinside.expression)

theorem namedWindow_tracks :
    Tracks tail bound depth depth (namedWindow inside) (namedWindow inside') :=
  nameOrText_advances.toTracks.cons ((keyword_advances _).toTracks.cons
    (opening_advances.toTracks.cons ((window_tracks hinside).cons .nil)))

theorem byExpressions_tracks (word : String) :
    Tracks tail bound depth depth
      (following (keywords [word, "BY"]) (expressions inside))
      (following (keywords [word, "BY"]) (expressions inside')) :=
  (keywords_tracks _).following (expressions_tracks hinside)

theorem condition_tracks (word : String) :
    Tracks tail bound depth depth (following (keyword word) inside.expression)
      (following (keyword word) inside'.expression) :=
  (keyword_advances _).toTracks.following hinside.expression

theorem selection_tracks :
    Tracks tail bound depth depth (selection inside) (selection inside') := by
  have hviews : Tracks tail bound depth depth
      (each (keywords ["LATERAL", "VIEW"]) (lateralView inside))
      (each (keywords ["LATERAL", "VIEW"]) (lateralView inside')) :=
    .each rfl (keywords_tracks _)
      ((keywords_advances _ _).andThen (lateralView_tracks hinside.pred))
  have hgrouping : Tracks tail bound depth depth
      (following (keywords ["GROUP", "BY"])
        (branch (keyword "ALL") nothing (commaList (groupingItem inside))))
      (following (keywords ["GROUP", "BY"])
        (branch (keyword "ALL") nothing (commaList (groupingItem inside')))) :=
    (keywords_tracks _).following ((keyword_advances _).toTracks.branch .nothing
      (commaList_tracks (groupingItem_tracks hinside)))
  have hwindows : Tracks tail bound depth depth
      (following (keyword "WINDOW") (commaList (namedWindow inside)))
      (following (keyword "WINDOW") (commaList (namedWindow inside'))) :=
    (keyword_advances _).toTracks.following
      (commaList_tracks (namedWindow_tracks hinside))
  exact (allOrDistinct_tracks hinside).cons
    (Tracks.cons ((keyword_advances _).toTracks.following (top_tracks hinside))
    ((commaList_tracks (selectItem_tracks hinside)).cons
    (Tracks.cons ((keyword_advances _).toTracks.following target_tracks)
    (Tracks.cons ((keyword_advances _).toTracks.following
      (commaList_tracks (joinedTables_tracks hinside)))
    (hviews.cons
    ((condition_tracks hinside _).cons
    (hgrouping.cons
    ((byExpressions_tracks hinside _).cons
    ((byExpressions_tracks hinside _).cons
    ((byExpressions_tracks hinside _).cons
    ((condition_tracks hinside _).cons
    (hwindows.cons
    ((condition_tracks hinside _).cons .nil)))))))))))))

/-- What follows a limit: perhaps an offset, and the rounds that are left. -/
def afterLimit (inside : Inside) (rounds : Nat) (limited : Bool) :
    (shifted : Bool) → Recogniser
  | true => limitsFor inside rounds limited true
  | false =>
      branch (keyword "OFFSET")
        (andThen
          (andThen inside.expression (optional (anyKeyword ["ROW", "ROWS"])))
          (limitsFor inside rounds limited true))
        (limitsFor inside rounds limited false)

/-- What `limitsFor` reads after a limit. -/
def limitsAfter (inside : Inside) (rounds : Nat) (limited shifted : Bool) :
    Recogniser := fun tokens => do
  let (shifted, rest) ←
    match shifted, keyword "OFFSET" tokens with
    | false, some rest' =>
        (andThen inside.expression
          (optional (anyKeyword ["ROW", "ROWS"])) rest').map fun tail =>
            (true, tail)
    | _, _ => some (shifted, tokens)
  limitsFor inside rounds limited shifted rest

omit hstops hinside in
theorem limitsFor_succ (inside : Inside) (rounds : Nat)
    (limited shifted : Bool) (tokens : List Token) :
    limitsFor inside (rounds + 1) limited shifted tokens =
      if limited then afterLimit inside rounds true shifted tokens
      else
        branch (keyword "LIMIT")
          (branch (keyword "ALL") (afterLimit inside rounds false shifted)
            (andThen inside.expression (afterLimit inside rounds true shifted)))
          (afterLimit inside rounds false shifted) tokens := by
  have hoffset (limited : Bool) (rest : List Token) :
      limitsAfter inside rounds limited shifted rest =
        afterLimit inside rounds limited shifted rest := by
    cases shifted with
    | true => rfl
    | false =>
      unfold limitsAfter
      rw [afterLimit, branch]
      cases keyword "OFFSET" rest with
      | none => rfl
      | some rest' => exact Option.bind_map
  cases limited with
  | true => exact hoffset true tokens
  | false =>
    simp only [limitsFor, branch]
    cases keyword "LIMIT" tokens with
    | none => exact hoffset false tokens
    | some rest =>
      cases hall : keyword "ALL" rest with
      | some rest' =>
        simp only [hall]
        exact hoffset false rest'
      | none =>
        have hthen : andThen inside.expression
            (afterLimit inside rounds true shifted) rest =
            (inside.expression rest).bind
              (afterLimit inside rounds true shifted) := rfl
        simp only [hall, hthen]
        cases inside.expression rest with
        | none => rfl
        | some rest' => exact hoffset true rest'

theorem limitsFor_tracks (rounds : Nat) (limited shifted : Bool) :
    Tracks tail bound depth depth (limitsFor inside rounds limited shifted)
      (limitsFor inside' rounds limited shifted) := by
  induction rounds generalizing limited shifted with
  | zero => exact .nothing
  | succ rounds ih =>
    have hoffset (limited : Bool) : Tracks tail bound depth depth
        (afterLimit inside rounds limited shifted)
        (afterLimit inside' rounds limited shifted) := by
      cases shifted with
      | true => exact ih limited true
      | false =>
        exact (keyword_advances _).toTracks.branch
          ((hinside.expression.andThen
            (anyKeyword_advances _).toTracks.optional).andThen (ih limited true))
          (ih limited false)
    rw [funext (limitsFor_succ inside rounds limited shifted),
      funext (limitsFor_succ inside' rounds limited shifted)]
    cases limited with
    | true => exact hoffset true
    | false =>
      exact (keyword_advances _).toTracks.branch
        ((keyword_advances _).toTracks.branch (hoffset false)
          (hinside.expression.andThen (hoffset true)))
        (hoffset false)

omit hinside in
theorem setOperator_advances :
    Advances tail bound depth depth setOperator setOperator := by
  have hunion : Tracks tail (bound - 1) depth depth
      (orElse (keywords ["DISTINCT", "BY", "NAME"])
        (orElse (keywords ["BY", "NAME"])
          (branch (keyword "ALL") (optional (keywords ["BY", "NAME"]))
            (optional (keyword "DISTINCT"))))) _ :=
    (keywords_tracks _).orElse ((keywords_tracks _).orElse
      ((keyword_advances _).toTracks.branch (keywords_tracks _).optional
        (keyword_advances _).toTracks.optional))
  exact (keyword_advances _).branch hunion ((anyKeyword_advances _).andThen
    (anyKeyword_advances _).toTracks.optional)

omit hinside in
theorem fetch_tracks : Tracks tail bound depth depth fetch fetch := by
  have hrows : Tracks tail bound depth depth
      (sequence [value, optional (keyword "PERCENT"),
        anyKeyword ["ROW", "ROWS"]]) _ :=
    value_advances.toTracks.cons ((keyword_advances _).toTracks.optional.cons
      ((anyKeyword_advances _).toTracks.cons .nil))
  exact (anyKeyword_advances _).toTracks.cons
    (Tracks.cons ((anyKeyword_advances _).toTracks.branch .nothing hrows)
      (Tracks.cons ((keyword_advances _).toTracks.orElse (keywords_tracks _))
        .nil))

omit hinside in
theorem documentForm_tracks :
    Tracks tail bound depth depth documentForm documentForm := by
  have hroot : Tracks tail (bound - 1) depth depth
      (following (keyword "ROOT") (parenthesised literalText)) _ :=
    (keyword_advances _).toTracks.following
      (parenthesised_advances literalText_advances.toTracks).toTracks
  have hmarkupMode {depth : Nat} : Tracks tail bound depth depth
      (branch (anyKeyword ["RAW", "PATH"])
        (following (mark "(") (andThen literalText (mark ")")))
        (anyKeyword ["AUTO", "EXPLICIT"])) _ :=
    (anyKeyword_advances _).toTracks.branch
      (opening_advances.toTracks.following
        (literalText_advances.toTracks.andThen closing_advances.toTracks))
      (anyKeyword_advances _).toTracks
  have hmarkupOption := (anyKeyword_advances ["ELEMENTS", "TYPE"]).toTracks.branch
    .nothing ((keyword_advances "BINARY").toTracks.branch
      (keyword_advances "BASE64").toTracks hroot)
  have hobjectOption :=
    (anyKeyword_advances ["INCLUDE_NULL_VALUES", "WITHOUT_ARRAY_WRAPPER"]).toTracks.branch
      .nothing hroot
  have hcomma {bound : Nat} : Advances tail bound depth depth (mark ",")
    (mark ",") := mark_advances (by decide) (by decide)
  exact (keyword_advances _).toTracks.branch
    (hmarkupMode.andThen
      (.each rfl hcomma.toTracks (hcomma.andThen hmarkupOption)))
    ((keyword_advances _).toTracks.branch
      ((anyKeyword_advances _).toTracks.andThen
        (.each rfl hcomma.toTracks (hcomma.andThen hobjectOption)))
      (keyword_advances _).toTracks)

omit hinside in
theorem lock_tracks : Tracks tail bound depth depth lock lock :=
  (anyKeyword_advances _).toTracks.cons
    (Tracks.cons ((keyword_advances _).toTracks.following
      objectName_advances.toTracks)
      (Tracks.cons ((keyword_advances _).toTracks.orElse
        (keywords_tracks _)).optional .nil))

omit hinside in
theorem purposes_tracks : Tracks tail bound depth depth purposes purposes :=
  Tracks.andThen (.many rfl ((keyword_advances _).andThen lock_tracks))
    ((keyword_advances _).toTracks.following documentForm_tracks)

theorem commonTable_tracks :
    Tracks tail bound depth depth (commonTable inside) (commonTable inside') :=
  nameOrText_advances.toTracks.cons
    (Tracks.cons ((keyword_advances _).toTracks.branch .nothing
      (optionalColumnList_tracks.andThen (keyword_advances _).toTracks))
      ((subquery_tracks hinside).cons
        (Tracks.cons ((keyword_advances _).toTracks.following
          nameOrText_advances.toTracks) .nil)))

theorem returning_tracks :
    Tracks tail bound depth depth (returning inside) (returning inside') :=
  (keyword_advances _).toTracks.following
    (commaList_tracks (selectItem_tracks hinside))

omit hinside in
/-- Without the words that skip parentheses no row is changed in place. -/
theorem conflictAction_tracks :
    Tracks tail bound depth depth (conflictAction inside)
      (conflictAction inside') := by
  have htarget : Tracks tail bound depth depth
      (branch (keywords ["ON", "CONSTRAINT"]) objectName optionalColumnList) _ :=
    (keywords_tracks _).branch objectName_advances.toTracks
      optionalColumnList_tracks
  have hset (s s' : Recogniser) : Tracks tail bound depth depth
      (andThen (keywords ["UPDATE", "SET"]) s)
      (andThen (keywords ["UPDATE", "SET"]) s') :=
    (skippingWords_advances ⟨"UPDATE", by decide⟩ s s').toTracks
  exact (keyword_advances _).toTracks.following
    ((keyword_advances _).toTracks.branch
      (htarget.cons ((keyword_advances _).toTracks.cons
        (Tracks.cons ((keyword_advances _).toTracks.branch .nothing (hset _ _)) .nil)))
      (skippingWords_advances ⟨"UPDATE", by decide⟩ _ _).toTracks)

theorem insertion_tracks :
    Tracks tail bound depth depth (insertion inside) (insertion inside') := by
  have hfiles := literalText_advances.toTracks.cons
    (Tracks.cons ((keywords_tracks ["STORED", "AS"]).following
      (anyKeyword_advances ["TEXTFILE", "SEQUENCEFILE", "ORC", "PARQUET", "AVRO",
        "RCFILE", "JSONFILE"]).toTracks)
      (hinside.query.cons (Tracks.nil (a := depth))))
  have hpartition : Tracks tail bound depth depth
      (following (keyword "PARTITION") (parenthesised (expressions inside)))
      (following (keyword "PARTITION") (parenthesised (expressions inside'))) :=
    (keyword_advances _).toTracks.following
      (parenthesised_advances (expressions_tracks hinside).pred).toTracks
  have hrows := optionalColumnList_tracks.cons (hpartition.cons
    (optionalColumnList_tracks.cons (hinside.query.cons .nil)))
  have hconflict : Tracks tail bound depth depth (conflictAction inside)
      (conflictAction inside') := conflictAction_tracks
  have htable := (keyword_advances "TABLE").toTracks.optional.cons
    (objectName_advances.toTracks.cons
      (Tracks.cons ((keyword_advances "AS").toTracks.following
        nameOrText_advances.toTracks)
        (Tracks.cons ((keywords_tracks ["DEFAULT", "VALUES"]).branch .nothing
          hrows) (hconflict.cons
            ((returning_tracks hinside).cons .nil)))))
  exact (anyKeyword_advances _).toTracks.optional.cons
    ((keyword_advances _).toTracks.optional.cons
      (Tracks.cons ((keyword_advances _).toTracks.branch hfiles htable) .nil))

end Inside

section Guarded

variable {inside inside' : Inside}
  (hinside : Inside.Tracks tail (bound - 1) inside inside')

include hinside

theorem commonTables_tracks :
    Tracks tail bound depth depth (commonTables inside)
      (commonTables inside') :=
  (keyword_advances _).following
    ((keyword_advances _).toTracks.optional.andThen
      (commaList_tracks (commonTable_tracks hinside)))

theorem queryTerm_advances :
    Advances tail bound depth depth (queryTerm inside) (queryTerm inside') := by
  have hrow : Tracks tail (bound - 1) depth depth
      (andThen (optional (keyword "ROW")) (parenthesised (expressions inside)))
      (andThen (optional (keyword "ROW"))
        (parenthesised (expressions inside'))) :=
    (keyword_advances _).toTracks.optional.andThen
      (parenthesised_advances (expressions_tracks hinside).pred).toTracks
  exact (keyword_advances _).branch (selection_tracks hinside)
    (opening_advances.branch
      (hinside.query.andThen closing_advances.toTracks)
      ((keyword_advances _).branch (commaList_tracks hrow)
        (skippingWord_advances (by decide) _ _)))

theorem fullQuery_tracks :
    Tracks tail bound depth depth (fullQuery inside) (fullQuery inside') := by
  have hterms : Advances tail bound depth depth
      (separated setOperator (queryTerm inside))
      (separated setOperator (queryTerm inside')) :=
    .separated rfl setOperator_advances (queryTerm_advances hinside)
  have hreading := hterms.cons ((orderBy_tracks hinside).cons
    ((limitsFor_tracks hinside 2 false false).cons
      (Tracks.cons ((keyword_advances "FETCH").toTracks.following fetch_tracks)
        (purposes_tracks.cons .nil))))
  exact (commonTables_tracks hinside).andThen
    ((keyword_advances _).branch_tracks (insertion_tracks hinside)
      ((keyword_advances _).toTracks.branch_of
        (skippingWord_advances (by decide) _ _).toTracks hreading.toTracks))

end Guarded

end GovernedCatalog.Sql.Recogniser
