import GovernedCatalog.Proofs.Sql.Operator
import GovernedCatalog.Sql.Operand

/-!
# Operands before a closing parenthesis

Calls, constants and names end before the closing parenthesis that is added, as
long as this holds of what stands inside them.
-/

namespace GovernedCatalog.Sql.Recogniser

variable {tail : List Token} [hstops : Stops tail] {bound depth : Nat}

/-- The name of an argument is a name before an arrow. -/
theorem argument_eq_branch (inside : Inside) :
    argument inside = branch (andThen nameOrText (mark "=>"))
      (starOrExpression inside) (starOrExpression inside) := by
  funext tokens
  cases tokens with
  | nil => rfl
  | cons token rest =>
    cases token with
    | word _ | quoted _ _ | text _ =>
      cases rest with
      | nil => rfl
      | cons second rest =>
        by_cases harrow : second = .mark "=>"
        · subst harrow
          rfl
        · simp [argument, branch, andThen, nameOrText, name, mark, harrow]
    | _ => rfl

section Inside

variable {inside inside' : Inside}
  (hinside : Inside.Tracks tail bound inside inside')

include hinside

theorem interval_tracks :
    Tracks tail bound depth depth (interval inside) (interval inside') := by
  have hseconds : Tracks tail bound depth depth
      (branch (keyword "SECOND") precision (anyKeyword timeFields)) _ :=
    (keyword_advances _).toTracks.branch precision_tracks
      (anyKeyword_advances _).toTracks
  have hrange : Tracks tail bound depth depth
      (andThen precision (following (keyword "TO")
        (branch (keyword "SECOND") precision (anyKeyword timeFields)))) _ :=
    precision_tracks.andThen ((keyword_advances _).toTracks.following hseconds)
  exact hinside.comparison.andThen
    ((keyword_advances _).toTracks.branch precisionAndScale_tracks
      ((anyKeyword_advances _).toTracks.optional.andThen hrange))

theorem argument_tracks :
    Tracks tail bound depth depth (argument inside) (argument inside') := by
  rw [argument_eq_branch, argument_eq_branch]
  exact (nameOrText_advances.toTracks.andThen
    (mark_advances (by decide) (by decide)).toTracks).branch
    (starOrExpression_tracks hinside) (starOrExpression_tracks hinside)

theorem arguments_tracks :
    Tracks tail bound (depth + 1) depth (arguments inside)
      (arguments inside') :=
  closing_advances.toTracks.orElse
    ((commaList_tracks (argument_tracks hinside)).andThen
      closing_advances.toTracks)

theorem orderedArguments_tracks :
    Tracks tail bound (depth + 1) depth (orderedArguments inside)
      (orderedArguments inside') :=
  closing_advances.toTracks.orElse
    ((commaList_tracks (argument_tracks hinside)).cons
      ((orderBy_tracks hinside).cons (closing_advances.toTracks.cons .nil)))

theorem frameBound_tracks :
    Tracks tail bound depth depth (frameBound inside) (frameBound inside') := by
  have hdistance : Tracks tail bound depth depth
      (fun tokens => if (text tokens).isSome then interval inside tokens
        else inside.expression tokens)
      (fun tokens => if (text tokens).isSome then interval inside' tokens
        else inside'.expression tokens) :=
    text_advances.toTracks.ite (interval_tracks hinside) hinside.expression
  exact (keywords_tracks _).orElse
    (((keyword_advances _).toTracks.branch .nothing hdistance).andThen
      (anyKeyword_advances _).toTracks)

theorem windowFrame_tracks :
    Tracks tail bound depth depth (windowFrame inside) (windowFrame inside') :=
  (anyKeyword_advances _).toTracks.andThen
    ((keyword_advances _).toTracks.branch
      ((frameBound_tracks hinside).cons
        ((keyword_advances _).toTracks.cons
          ((frameBound_tracks hinside).cons .nil)))
      (frameBound_tracks hinside))

theorem window_tracks :
    Tracks tail bound (depth + 1) depth (window inside) (window inside') :=
  ((keywords_tracks _).following (expressions_tracks hinside)).cons
    ((orderBy_tracks hinside).cons
      (Tracks.cons (closing_advances.toTracks.orElse
        ((windowFrame_tracks hinside).andThen closing_advances.toTracks))
        .nil))

/-- The parenthesis of a filter may stay open. -/
theorem filter_tracks :
    Tracks tail bound depth depth
      (following (keyword "FILTER") (following (mark "(")
        (following (keyword "WHERE") (andThen inside.expression (mark ")")))))
      (following (keyword "FILTER") (following (mark "(")
        (following (keyword "WHERE")
          (andThen inside'.expression (mark ")"))))) :=
  (keyword_advances _).toTracks.following
    (opening_advances.toTracks.following
      ((keyword_advances _).toTracks.branch
        (hinside.expression.andThen closing_advances.toTracks)
        Tracks.nothing.weaken))

theorem call_tracks :
    Tracks tail bound depth depth (call inside) (call inside') :=
  opening_advances.toTracks.cons
    ((allOrDistinct_tracks hinside).cons
      ((orderedArguments_tracks hinside).cons
        ((filter_tracks hinside).cons
          (Tracks.cons ((anyKeyword_advances _).toTracks.following
            (keyword_advances _).toTracks)
            (Tracks.cons ((keyword_advances _).toTracks.following
              (opening_advances.toTracks.branch (window_tracks hinside)
                nameOrText_advances.toTracks)) .nil)))))

theorem caseExpression_tracks :
    Tracks tail bound depth depth (caseExpression inside)
      (caseExpression inside') := by
  have hbranch : Tracks tail bound depth depth
      (sequence [inside.expression, keyword "THEN", inside.expression])
      (sequence [inside'.expression, keyword "THEN", inside'.expression]) :=
    hinside.expression.cons
      ((keyword_advances _).toTracks.cons (hinside.expression.cons .nil))
  have hsubject : Tracks tail bound depth depth
      (branch (keyword "WHEN") nothing (andThen inside.expression (keyword "WHEN")))
      (branch (keyword "WHEN") nothing (andThen inside'.expression (keyword "WHEN"))) :=
    (keyword_advances _).toTracks.branch .nothing
      (hinside.expression.andThen (keyword_advances _).toTracks)
  exact hsubject.cons
    (Tracks.cons (.separated rfl (keyword_advances _) hbranch)
      (Tracks.cons ((keyword_advances _).toTracks.following hinside.expression)
        ((keyword_advances _).toTracks.cons .nil)))

theorem cast_tracks :
    Tracks tail bound depth depth (cast inside) (cast inside') := by
  have hformat {depth : Nat} : Tracks tail (bound - 1) depth depth
      (following (keyword "FORMAT")
        (andThen value (following (keywords ["AT", "TIME", "ZONE"]) value))) _ :=
    (keyword_advances _).toTracks.following
      (value_advances.toTracks.andThen
        ((keywords_tracks _).following value_advances.toTracks))
  exact (parenthesised_advances (hinside.expression.pred.cons
    ((keyword_advances _).toTracks.cons
      (typeName_advances.toTracks.cons (hformat.cons .nil))))).toTracks

theorem convert_tracks :
    Tracks tail bound depth depth (convert inside) (convert inside') := by
  have hcharacters {depth : Nat} : Tracks tail (bound - 1) depth depth
      (following (keywords ["CHARACTER", "SET"]) objectName) _ :=
    (keywords_tracks _).following objectName_advances.toTracks
  exact (parenthesised_advances (hinside.expression.pred.andThen
    ((keyword_advances _).toTracks.branch objectName_advances.toTracks
      ((mark_advances (by decide) (by decide)).toTracks.cons
        (typeName_advances.toTracks.cons
          (hcharacters.cons .nil)))))).toTracks

theorem extract_tracks :
    Tracks tail bound depth depth (extract inside) (extract inside') :=
  (parenthesised_advances ((anyKeyword_advances _).toTracks.cons
    ((keyword_advances _).toTracks.cons
      (hinside.expression.pred.cons .nil)))).toTracks

theorem rounding_tracks :
    Tracks tail bound depth depth (rounding inside) (rounding inside') :=
  (parenthesised_advances (hinside.expression.pred.andThen
    ((keyword_advances _).toTracks.following
      (anyKeyword_advances _).toTracks))).toTracks

theorem position_tracks :
    Tracks tail bound depth depth (position inside) (position inside') :=
  (parenthesised_advances ((hinside.operand betweenPrecedence).pred.cons
    ((keyword_advances _).toTracks.cons
      (hinside.expression.pred.cons .nil)))).toTracks

theorem substring_tracks :
    Tracks tail bound depth depth (substring inside) (substring inside') := by
  have hstart {depth : Nat} : Tracks tail (bound - 1) depth depth
      (orElse (mark ",") (keyword "FROM")) _ :=
    (mark_advances (by decide) (by decide)).toTracks.orElse
      (keyword_advances _).toTracks
  have hlength {depth : Nat} : Tracks tail (bound - 1) depth depth
      (orElse (keyword "FOR") (mark ",")) _ :=
    (keyword_advances _).toTracks.orElse
      (mark_advances (by decide) (by decide)).toTracks
  exact (parenthesised_advances (hinside.expression.pred.cons
    (Tracks.cons (hstart.following hinside.expression.pred)
      (Tracks.cons (hlength.following hinside.expression.pred)
        .nil)))).toTracks

theorem overlay_tracks :
    Tracks tail bound depth depth (overlay inside) (overlay inside') :=
  (parenthesised_advances (hinside.expression.pred.cons
    ((keyword_advances _).toTracks.cons (hinside.expression.pred.cons
      ((keyword_advances _).toTracks.cons (hinside.expression.pred.cons
        (Tracks.cons ((keyword_advances _).toTracks.following
          hinside.expression.pred) .nil))))))).toTracks

theorem trimmed_tracks :
    Tracks tail bound depth depth (trimmed inside) (trimmed inside') :=
  (parenthesised_advances ((anyKeyword_advances _).toTracks.optional.cons
    (hinside.expression.pred.cons
      (Tracks.cons ((keyword_advances _).toTracks.branch
        hinside.expression.pred
        (mark_advances (by decide) (by decide)).toTracks.optional)
        .nil)))).toTracks

/-- The constants that may stand for texts without room. -/
def fillerText : Recogniser
  | .text _ :: rest | .escaped _ :: rest | .national :: rest
  | .hexadecimal :: rest => some rest
  | _ => none

omit hstops hinside in
theorem overflowFiller_eq_ite (inside : Inside) :
    overflowFiller inside = fun tokens =>
      if (fillerText tokens).isSome then inside.expression tokens
      else nothing tokens := by
  funext tokens
  cases tokens with
  | nil => rfl
  | cons token rest => cases token <;> rfl

theorem overflowFiller_tracks :
    Tracks tail bound depth depth (overflowFiller inside)
      (overflowFiller inside') := by
  have hfiller : Advances tail bound depth depth fillerText fillerText :=
    .of_one rfl fun token => by cases token <;> simp [fillerText]
  rw [overflowFiller_eq_ite, overflowFiller_eq_ite]
  exact hfiller.toTracks.ite hinside.expression .nothing

theorem textList_tracks :
    Tracks tail bound depth depth (textList inside) (textList inside') := by
  have hfiller {depth : Nat} : Tracks tail (bound - 1) depth depth
      (sequence [keyword "TRUNCATE", overflowFiller inside,
        anyKeyword ["WITH", "WITHOUT"], keyword "COUNT"])
      (sequence [keyword "TRUNCATE", overflowFiller inside',
        anyKeyword ["WITH", "WITHOUT"], keyword "COUNT"]) :=
    (keyword_advances _).toTracks.cons ((overflowFiller_tracks hinside).pred.cons
      ((anyKeyword_advances _).toTracks.cons
        ((keyword_advances _).toTracks.cons .nil)))
  have hseparator {depth : Nat} : Tracks tail (bound - 1) depth depth
      (following (mark ",") inside.expression)
      (following (mark ",") inside'.expression) :=
    (mark_advances (by decide) (by decide)).toTracks.following
      hinside.expression.pred
  have horder {depth : Nat} : Tracks tail (bound - 1) depth depth
      (sequence [keywords ["ORDER", "BY"], orderItems inside])
      (sequence [keywords ["ORDER", "BY"], orderItems inside']) :=
    (keywords_tracks _).cons ((orderItems_tracks hinside).pred.cons .nil)
  refine (parenthesised_advances ((allOrDistinct_tracks hinside).pred.cons
    (hinside.expression.pred.cons (hseparator.cons (Tracks.cons
      ((keywords_tracks _).following ((keyword_advances _).toTracks.branch
        .nothing hfiller)) .nil))))).toTracks.cons
    (Tracks.cons ((keywords_tracks _).following
      (parenthesised_advances horder).toTracks) .nil)

theorem limit_tracks :
    Tracks tail bound depth depth (limit inside) (limit inside') :=
  (keyword_advances _).toTracks.branch .nothing hinside.expression

theorem arrayOfRows_tracks :
    Tracks tail bound depth depth (arrayOfRows inside) (arrayOfRows inside') :=
  (parenthesised_advances ((keyword_advances _).toTracks.optional.cons
    (hinside.expression.pred.cons ((orderBy_tracks hinside).pred.cons
      (Tracks.cons ((keyword_advances _).toTracks.following
        (limit_tracks hinside).pred) .nil))))).toTracks

omit hstops hinside in
theorem afterPoint_eq_andThen (inside : Inside) :
    afterPoint inside = andThen (many (andThen (mark ".") nameOrText))
      fun tokens =>
        if (mark "." tokens).isSome then andThen (mark ".") (mark "*") tokens
        else
          (fun tokens =>
            if (mark "(" tokens).isSome then call inside tokens
            else nothing tokens) tokens := by
  unfold afterPoint
  congr 1
  funext tokens
  cases tokens with
  | nil => rfl
  | cons token rest =>
    by_cases hpoint : token = .mark "."
    · subst hpoint
      cases rest with
      | nil => rfl
      | cons second rest =>
        by_cases hstar : second = .mark "*"
        · subst hstar
          rfl
        · simp [andThen, mark, hstar]
    · by_cases hopen : token = .mark "("
      · subst hopen
        rfl
      · simp [mark, hpoint, hopen, nothing]

theorem afterPoint_tracks :
    Tracks tail bound depth depth (afterPoint inside) (afterPoint inside') := by
  have hstar {depth : Nat} : Tracks tail bound depth depth
      (andThen (mark ".") (mark "*")) _ :=
    (mark_advances (by decide) (by decide)).toTracks.andThen
      (mark_advances (by decide) (by decide)).toTracks
  rw [afterPoint_eq_andThen, afterPoint_eq_andThen]
  exact (Tracks.many rfl point_advances).andThen
    ((mark_advances (by decide) (by decide)).toTracks.ite hstar
      (opening_advances.toTracks.ite (call_tracks hinside) .nothing))

/-- What may follow the name of a character set. -/
def constantOf (first : String) : Recogniser
  | .text _ :: rest | .hexadecimal :: rest =>
      if first.startsWith "_" then some rest else none
  | _ => none

omit hstops hinside in
theorem afterName_eq_ite (inside : Inside) (first : String) :
    afterName inside first = fun tokens =>
      if (mark "." tokens).isSome then afterPoint inside tokens
      else
        (fun tokens =>
          if (mark "(" tokens).isSome then call inside tokens
          else optional (constantOf first) tokens) tokens := by
  funext tokens
  cases tokens with
  | nil => rfl
  | cons token rest =>
    cases token with
    | mark m =>
      by_cases hpoint : m = "."
      · subst hpoint
        rfl
      · by_cases hopen : m = "("
        · subst hopen
          rfl
        · simp [afterName, mark, hpoint, hopen, optional, constantOf]
    | text t | hexadecimal =>
      by_cases hfirst : first.startsWith "_" <;>
        simp [afterName, mark, optional, constantOf, hfirst]
    | _ => rfl

theorem afterName_tracks (first : String) :
    Tracks tail bound depth depth (afterName inside first)
      (afterName inside' first) := by
  have hconstant : Advances tail bound depth depth (constantOf first)
      (constantOf first) := by
    refine .of_one rfl fun token => ?_
    by_cases hfirst : first.startsWith "_" <;>
      cases token <;> simp [constantOf, hfirst]
  rw [afterName_eq_ite, afterName_eq_ite]
  exact (mark_advances (by decide) (by decide)).toTracks.ite
    (afterPoint_tracks hinside)
    (opening_advances.toTracks.ite (call_tracks hinside)
      hconstant.toTracks.optional)

theorem arrayItems_tracks :
    Tracks tail bound depth depth (arrayItems inside) (arrayItems inside') :=
  (mark_advances (by decide) (by decide)).toTracks.orElse
    ((expressions_tracks hinside).andThen
      (mark_advances (by decide) (by decide)).toTracks)

theorem group_tracks :
    Tracks tail bound (depth + 1) depth (group inside) (group inside') :=
  (queryOr_tracks hinside (expressions_tracks hinside)).andThen
    ((mark_advances (by decide) (by decide)).toTracks.following
      name_advances.toTracks)

theorem negation_tracks :
    Tracks tail bound depth depth (negation inside) (negation inside') :=
  (keyword_advances _).toTracks.branch (subquery_tracks hinside)
    (hinside.operand notPrecedence)

/-- What follows a word that is a construct of its own only before a
bracket. -/
def afterBracket (inside : Inside) (spelling k : String) : Recogniser :=
  fun tokens =>
    match k, tokens with
    | "POSITION", .mark "(" :: _ => position inside tokens
    | "ARRAY", .mark "(" :: _ => subquery inside tokens
    | "ARRAY", .mark "[" :: rest => arrayItems inside rest
    | _, _ => afterName inside spelling tokens

omit hstops hinside in
theorem afterBracket_position (inside : Inside) (spelling : String) :
    afterBracket inside spelling "POSITION" = fun tokens =>
      if (mark "(" tokens).isSome then position inside tokens
      else afterName inside spelling tokens := by
  funext tokens
  cases tokens with
  | nil => rfl
  | cons token rest =>
    by_cases hopen : token = .mark "("
    · subst hopen
      rfl
    · simp [afterBracket, mark, hopen]

omit hstops hinside in
theorem afterBracket_array (inside : Inside) (spelling : String) :
    afterBracket inside spelling "ARRAY" = fun tokens =>
      if (mark "(" tokens).isSome then subquery inside tokens
      else branch (mark "[") (arrayItems inside) (afterName inside spelling)
        tokens := by
  funext tokens
  cases tokens with
  | nil => rfl
  | cons token rest =>
    by_cases hopen : token = .mark "("
    · subst hopen
      rfl
    · by_cases hbracket : token = .mark "["
      · subst hbracket
        rfl
      · simp [afterBracket, branch, mark, hopen, hbracket]

theorem afterBracket_tracks (spelling k : String) :
    Tracks tail bound depth depth (afterBracket inside spelling k)
      (afterBracket inside' spelling k) := by
  have hname : Tracks tail bound depth depth (afterName inside spelling)
      (afterName inside' spelling) := afterName_tracks hinside spelling
  by_cases hposition : k = "POSITION"
  · subst hposition
    rw [afterBracket_position, afterBracket_position]
    exact opening_advances.toTracks.ite (position_tracks hinside) hname
  · by_cases harray : k = "ARRAY"
    · subst harray
      rw [afterBracket_array, afterBracket_array]
      exact opening_advances.toTracks.ite (subquery_tracks hinside)
        ((mark_advances (by decide) (by decide)).toTracks.branch
          (arrayItems_tracks hinside) hname)
    · have hother (inside : Inside) :
          afterBracket inside spelling k = afterName inside spelling := by
        funext tokens
        simp [afterBracket, hposition, harray]
      rwa [hother, hother]

theorem afterWord_tracks (spelling : String) :
    Tracks tail bound depth depth (afterWord inside spelling)
      (afterWord inside' spelling) := by
  unfold afterWord
  split
  case h_1 | h_2 | h_3 | h_4 | h_5 | h_6 | h_7 => exact .nothing
  case h_8 | h_9 | h_10 | h_11 | h_12 =>
    exact opening_advances.toTracks.following (orderedArguments_tracks hinside)
  case h_13 => exact caseExpression_tracks hinside
  case h_14 => exact convert_tracks hinside
  case h_15 | h_16 | h_17 => exact cast_tracks hinside
  case h_18 => exact subquery_tracks hinside
  case h_19 => exact extract_tracks hinside
  case h_20 | h_21 => exact rounding_tracks hinside
  case h_22 => exact substring_tracks hinside
  case h_23 => exact overlay_tracks hinside
  case h_24 => exact trimmed_tracks hinside
  case h_25 => exact interval_tracks hinside
  case h_26 => exact textList_tracks hinside
  case h_27 => exact arrayOfRows_tracks hinside
  case h_28 => exact negation_tracks hinside
  case h_29 => exact afterBracket_tracks hinside spelling _

/-- What follows the name of a type in a constant. -/
def constantOfType (inside : Inside) : TypeKind → Recogniser
  | .builtin => literalText
  | .interval => interval inside
  | .custom => fun _ => none

omit hstops hinside in
theorem typedConstant_eq_bind (inside : Inside) (tokens : List Token) :
    typedConstant inside tokens =
      (readType tokens).bind fun type => constantOfType inside type.1 type.2 := by
  unfold typedConstant
  cases readType tokens with
  | none => rfl
  | some type =>
    obtain ⟨kind, rest⟩ := type
    cases kind <;> rfl

theorem constantOfType_tracks (kind : TypeKind) :
    Tracks tail bound depth depth (constantOfType inside kind)
      (constantOfType inside' kind) := by
  cases kind with
  | builtin => exact literalText_advances.toTracks
  | interval => exact interval_tracks hinside
  | custom => exact .fail

end Inside

section Guarded

variable {inside inside' : Inside}
  (hinside : Inside.Tracks tail (bound - 1) inside inside')

include hinside

theorem typedConstant_advances :
    Advances tail bound depth depth (typedConstant inside)
      (typedConstant inside') where
  same {tokens} hbound henclosed := by
    rw [typedConstant_eq_bind, typedConstant_eq_bind, readType_same henclosed]
    cases htype : readType tokens with
    | none => rfl
    | some type =>
      obtain ⟨hlt, hrest⟩ := readType_rest henclosed htype
      exact (constantOfType_tracks hinside type.1).same (by omega) hrest
  rest {tokens rest} hbound henclosed h := by
    rw [typedConstant_eq_bind] at h
    obtain ⟨type, htype, h⟩ := Option.bind_eq_some_iff.mp h
    obtain ⟨hlt, hrest⟩ := readType_rest henclosed htype
    obtain ⟨hle, hrest'⟩ :=
      (constantOfType_tracks hinside type.1).rest (by omega) hrest h
    exact ⟨by omega, hrest'⟩
  shorter {tokens rest} hbound henclosed h := by
    rw [typedConstant_eq_bind] at h
    obtain ⟨type, htype, h⟩ := Option.bind_eq_some_iff.mp h
    obtain ⟨hlt, hrest⟩ := readType_rest henclosed htype
    have hle :=
      ((constantOfType_tracks hinside type.1).rest (by omega) hrest h).1
    omega

theorem markOperand_tracks {m : String} (hopen : m ≠ "(") (hclose : m ≠ ")") :
    Tracks tail (bound - 1) depth depth
      (fun rest => plainOperand inside (.mark m :: rest))
      fun rest => plainOperand inside' (.mark m :: rest) := by
  simp only [plainOperand]
  split
  · contradiction
  · exact arrayItems_tracks hinside
  · exact hinside.operand _
  · exact hinside.operand _
  · exact hinside.operand _
  · exact hinside.operand _
  · exact hinside.operand _
  · exact hinside.operand _
  · exact hinside.operand _
  · exact value_advances.after rfl (by decide) (by decide)
  · exact .fail

theorem plainOperand_advances :
    Advances tail bound depth depth (plainOperand inside)
      (plainOperand inside') := by
  refine .of_token rfl rfl (fun rest => rfl) fun token _ => ?_
  cases token with
  | mark m =>
    by_cases hopen : m = "("
    · subst hopen
      exact .inr ⟨depth + 1, fun rest h => h.of_opening, group_tracks hinside⟩
    · by_cases hclose : m = ")"
      · subst hclose
        exact .inl fun rest => ⟨rfl, rfl⟩
      · exact .inr ⟨depth, fun rest h => h.of_cons (by simpa) (by simpa),
          markOperand_tracks hinside hopen hclose⟩
  | word w =>
    exact .inr ⟨depth, fun rest h => h.of_cons (by simp) (by simp),
      afterWord_tracks hinside w⟩
  | quoted quote name =>
    exact .inr ⟨depth, fun rest h => h.of_cons (by simp) (by simp),
      afterName_tracks hinside name⟩
  | stray c => exact .inl fun rest => ⟨rfl, rfl⟩
  | _ =>
    exact .inr ⟨depth, fun rest h => h.of_cons (by simp) (by simp), .nothing⟩

theorem firstOperand_advances :
    Advances tail bound depth depth (firstOperand inside)
      (firstOperand inside') :=
  (typedConstant_advances hinside).orElse
    ((plainOperand_advances hinside).andThen
      ((keyword_advances _).toTracks.following objectName_advances.toTracks))

end Guarded

end GovernedCatalog.Sql.Recogniser
